import TalonX.Piv.Change
import TalonX.Piv.Engine

/-!
# Exits

- `EngineStep`: a part of a tick, a change of the lifecycle, or a new process;
- `Fair`: the exit of a position was fired by a bar later than its first fill;
- `Owned`: everything that may still bring in shares of a symbol belongs to a position of the kind;
- `Kept`: what holds between the steps of every run;
- `Beside`, `Covered`: what a part of a tick does to other symbols, and that it loses no plan.
-/

set_option autoImplicit false

namespace TalonX.Piv

open Transact V2

variable {cfg : Config} {s t : LifecycleState} {e : Engine} {symbol : Symbol} {p : Position} {R : Position → Prop}

/-! ## Runs -/

inductive EngineStep (cfg : Config) : Engine → Engine → Prop
  | part (e : Engine) (x : Part) : EngineStep cfg e (e.exec cfg x).engine
  | change {e : Engine} {t : LifecycleState} : Change cfg e.state t → EngineStep cfg e { e with state := t }
  | restart (e : Engine) : EngineStep cfg e e.restart

def Reached (cfg : Config) (e : Engine) : Prop := Relation.ReflTransGen (EngineStep cfg) {} e

/-! ## What belongs to a kind of position -/

/-- Open positions and live orders of the symbol belong to positions of the kind, and no BUY of it is unsettled. -/
structure Owned (F : Position → Prop) (s : LifecycleState) (symbol : Symbol) : Prop where
  opened : ∀ p ∈ s.positions.rows, p.status = .opened → p.symbol = symbol → F p
  live : ∀ o ∈ s.orders.rows, o.live → o.symbol = symbol → ∃ p ∈ s.positions.rows, p.id.entry = o.intentId ∧ F p
  settled : ∀ q ∈ s.intents.rows, q.unsettled → q.id.side = .buy → q.id.symbol ≠ symbol

theorem PositionId.eq_of_entry {k k' : PositionId} (h : k.entry = k'.entry) : k = k' := by
  cases k; cases k'; exact congrArg PositionId.mk h

theorem Owned.mono {F G : Position → Prop} (h : Owned F s symbol) (hfg : ∀ p ∈ s.positions.rows, F p → G p) :
    Owned G s symbol where
  opened p hp ho hs := hfg p hp (h.opened p hp ho hs)
  live o ho hl hs := by
    obtain ⟨p, hp, hid, hf⟩ := h.live o ho hl hs
    exact ⟨p, hp, hid, hfg p hp hf⟩
  settled := h.settled

/-- The open position of a symbol owns it. -/
theorem Single.owned {F : Position → Prop} (h : Single s) (hp : s.openPositionFor symbol = some p) (hf : F p) :
    Owned F s symbol := by
  obtain ⟨hmem, hopen, hsym⟩ := h.openPositionFor_eq_some.1 hp
  constructor
  · intro p' hp' ho hs
    rw [h.opened_unique hp' hmem ho hopen (by rw [hs, hsym])]
    exact hf
  · intro o ho hl hs
    exact ⟨p, hmem, h.own o ho hl p hmem hopen (by rw [hsym, hs]), hf⟩
  · intro q hq hu hside hs
    exact (h.alone q hq hu hside).1 p hmem hopen (by rw [hsym, hs])

theorem Owned.step {F : Position → Prop} (h : Owned F s symbol) (hs : Single s) (ht : Step R s t)
    (hF : ∀ p p' : Position, p.Grows R p' → F p → F p') : Owned F t symbol := by
  constructor
  · intro p' hp' ho hsym
    rcases ht.positions p' hp' with ⟨p, hp, hg, hopened⟩ | ⟨hnone, -, -, o, ho', hl, hos, hid⟩
    · apply hF p p' hg
      rcases hopened ho with hpo | ⟨o, ho', hl, hos, hid⟩
      · exact h.opened p hp hpo (by rw [← hg.symbol, hsym])
      · obtain ⟨p₁, hp₁, hid₁, hf⟩ := h.live o ho' hl (by rw [hos, hsym])
        have hsame : p₁.id = p.id := by rw [← hg.id]; exact PositionId.eq_of_entry (by rw [hid₁, hid])
        rw [← s.positions.eq_of_key hp₁ hp hsame]
        exact hf
    · obtain ⟨p₁, hp₁, hid₁, -⟩ := h.live o ho' hl (by rw [hos, hsym])
      exact absurd (PositionId.eq_of_entry (by rw [hid₁, hid])) (Table.get_eq_none.1 hnone p₁ hp₁)
  · intro o' ho' hl hsym
    obtain ⟨hos, hor⟩ := ht.orders o' ho'
    rcases hor hl with ⟨o, ho, hlo, hid⟩ | ⟨⟨q, hq, hu, hqid⟩, -⟩
    · obtain ⟨p, hp, hpid, hf⟩ := h.live o ho hlo (by rw [← hs.orderSymbol o ho, hid, hos, hsym])
      obtain ⟨p', hp', hg⟩ := ht.kept p hp
      exact ⟨p', hp', by rw [hg.id, hpid, hid], hF p p' hg hf⟩
    · have hside : q.id.side = .buy := by
        unfold Order.live at hl
        simp only [Bool.and_eq_true, decide_eq_true_eq] at hl
        rw [hqid]
        exact hl.1
      exact absurd (by rw [hqid, hos, hsym]) (h.settled q hq hu hside)
  · intro q' hq' hu hside hsym
    obtain ⟨q, hq, hu', hid⟩ := ht.intents q' hq' hu hside
    rw [← hid] at hsym hside
    exact h.settled q hq hu' hside hsym

/-- A BUY of another symbol is no concern. -/
theorem Owned.admitBuy {F : Position → Prop} (h : Owned F s symbol) {r : OrderRequest} {i : IntentId}
    (hadm : admitIntent cfg s r = .ok (i, t)) (hne : i.symbol ≠ symbol) : Owned F t symbol := by
  have hmem := fun q => mem_admitted hadm (q := q)
  obtain ⟨-, -, budgets, -, rfl⟩ := admitIntent_ok hadm
  refine ⟨h.opened, h.live, fun q hq hu hside => ?_⟩
  rcases hmem q hq with hold | hid
  · exact h.settled q hold hu hside
  · rw [hid]
    exact hne

/-! ## Fair exits -/

/-- The exit was fired by a bar later than the first fill. -/
def Fair (fired : PositionId → Option Instant) (p : Position) : Prop :=
  ∃ t τ, fired p.id = some t ∧ p.firstFillObservedAt = some (.zoned τ) ∧ τ < t

theorem Fair.grows {fired : PositionId → Option Instant} {p p' : Position} (hg : p.Grows R p') (h : Fair fired p) :
    Fair fired p' := by
  obtain ⟨t, τ, ht, hτ, hlt⟩ := h
  exact ⟨t, τ, by rw [hg.id]; exact ht, by rw [hg.firstFill (by rw [hτ]; rfl)]; exact hτ, hlt⟩

/-- What holds between the steps. -/
structure Kept (e : Engine) : Prop where
  single : Single e.state
  /-- A saved STOP or TARGET was fired fairly. -/
  saved : ∀ p ∈ e.state.positions.rows, ∀ r, p.triggeredExitReason = some r → r ≠ .endOfSession → Fair e.fired p
  /-- So was the one of a plan, for whatever position of the symbol it will be applied to. -/
  planned : ∀ symbol plan r, e.plans symbol = some plan → plan.exitReason = some r → r ≠ .endOfSession →
    Owned (Fair e.fired) e.state symbol

namespace Kept

/-- A step of the lifecycle, whose new reasons are fair. -/
theorem step (h : Kept e) (ht : Step R e.state t)
    (hR : ∀ p, R p → ∀ r, p.triggeredExitReason = some r → r ≠ .endOfSession → Fair e.fired p) :
    Kept { e with state := t } where
  single := h.single.step ht
  saved p' hp' r hr hne := by
    rcases ht.positions p' hp' with ⟨p, hp, hg, -⟩ | ⟨-, -, hnone, -⟩
    · rcases hg.triggered with hsame | ⟨-, hnew⟩
      · exact (h.saved p hp r (by rw [← hsame]; exact hr) hne).grows hg
      · exact hR p' hnew r hr hne
    · rw [hnone] at hr
      cases hr
  planned symbol plan r hplan hr hne := (h.planned symbol plan r hplan hr hne).step h.single ht fun _ _ => Fair.grows

theorem changes (h : Kept e) (hc : Changes cfg e.state t) : Kept { e with state := t } := by
  induction hc with
  | refl => exact h
  | tail _ hc ih => exact ih.step (hc.step (fun _ => False) ih.single) fun _ hR => hR.elim

/-- A plan that has no STOP or TARGET yet may be set, and a plan may be dropped. -/
theorem setPlan (h : Kept e) {plan : Option Plan}
    (hplan : ∀ x r, plan = some x → x.exitReason = some r → r ≠ .endOfSession → Owned (Fair e.fired) e.state symbol) :
    Kept (e.setPlan symbol plan) where
  single := h.single
  saved := h.saved
  planned symbol' x r hx hr hne := by
    by_cases hs : symbol' = symbol
    · subst hs
      rw [Engine.plans_setPlan_self] at hx
      exact hplan x r hx hr hne
    · rw [Engine.plans_setPlan_of_ne e hs] at hx
      exact h.planned symbol' x r hx hr hne

/-- The plan of an open position takes over the saved reason. -/
theorem rehydrated (h : Kept e) (hp : e.state.openPositionFor symbol = some p) {plan : Plan} {r : ExitReason}
    (hplan : Engine.rehydratePlan p = some plan) (hr : plan.exitReason = some r) (hne : r ≠ .endOfSession) :
    Owned (Fair e.fired) e.state symbol := by
  unfold Engine.rehydratePlan at hplan
  split at hplan
  · obtain rfl := Option.some.inj hplan
    exact h.single.owned hp (h.saved p (h.single.openPositionFor_eq_some.1 hp).1 r hr hne)
  · cases hplan

theorem flag (h : Kept e) (symbol : Symbol) : Kept (e.flag symbol) := by
  unfold Engine.flag
  split
  · exact h
  split
  · exact h
  · rename_i p hp
    exact h.setPlan fun x r hx hr hne => h.rehydrated hp hx hr hne

theorem restart (h : Kept e) : Kept e.restart where
  single := h.single
  saved := h.saved
  planned symbol plan r hplan hr hne := by
    rcases Option.or_eq_some_iff.1 hplan with hopen | ⟨-, hpending⟩
    · obtain ⟨p, hp, hp'⟩ := List.exists_of_findSome?_eq_some hopen
      obtain ⟨hmem, hcond⟩ := List.mem_filter.1 hp
      simp only [Bool.and_eq_true, decide_eq_true_eq] at hcond
      exact h.rehydrated (h.single.openPositionFor_eq_some.2 ⟨hmem, hcond⟩) hp' hr hne
    · unfold Engine.rehydratePending at hpending
      split at hpending
      · obtain rfl := Option.some.inj hpending
        cases hr
      · cases hpending

/-- The price of a bar fires only when the bar is later than the first fill. -/
theorem fair_of_priceTrigger {plan : Plan} {bar : Bar} {force : Option ExitReason}
    (h : (Engine.priceTrigger plan p bar force).isSome) :
    ∃ τ, p.firstFillObservedAt = some (.zoned τ) ∧ τ < bar.timestamp := by
  unfold Engine.priceTrigger at h
  split at h
  · rename_i hcond
    simp only [Bool.and_eq_true] at hcond
    have heligible := hcond.2
    unfold Engine.causallyEligible at heligible
    split at heligible
    · rename_i τ hτ
      exact ⟨τ, hτ, of_decide_eq_true heligible⟩
    · cases heligible
  · cases h

/-- The position whose exit the price has fired is fair. -/
theorem fair_fired {plan : Plan} {bar : Bar} {force : Option ExitReason}
    (h : (Engine.priceTrigger plan p bar force).isSome) : Fair (e.latch symbol plan p bar force).fired p := by
  obtain ⟨τ, hτ, hlt⟩ := fair_of_priceTrigger h
  refine ⟨bar.timestamp, τ, ?_, hτ, hlt⟩
  show (if _ then Function.update e.fired p.id (some bar.timestamp) else e.fired) p.id = _
  rw [if_pos h, Function.update_self]

/-- The others stay fair. -/
theorem fair_latch {x : Position} (hx : x ∈ e.state.positions.rows) (hmem : p ∈ e.state.positions.rows) {plan : Plan}
    {bar : Bar} {force : Option ExitReason} (h : Fair e.fired x) : Fair (e.latch symbol plan p bar force).fired x := by
  by_cases hprice : (Engine.priceTrigger plan p bar force).isSome
  · by_cases hid : x.id = p.id
    · rw [e.state.positions.eq_of_key hx hmem hid]
      exact fair_fired hprice
    · obtain ⟨t, τ, ht, hτ, hlt⟩ := h
      refine ⟨t, τ, ?_, hτ, hlt⟩
      show (if _ then Function.update e.fired p.id (some bar.timestamp) else e.fired) x.id = _
      rw [if_pos hprice, Function.update_of_ne hid]
      exact ht
  · have hsame : (e.latch symbol plan p bar force).fired = e.fired := if_neg hprice
    rw [hsame]
    exact h

/-- Whatever a STOP or TARGET is applied to was fired fairly. -/
theorem fair_exitReason (h : Kept e) (hp : e.state.openPositionFor symbol = some p) {plan : Plan}
    (hplan : e.plans symbol = some plan) {bar : Bar} {force : Option ExitReason}
    (hforce : ∀ r, force = some r → r = .endOfSession) {reason : ExitReason}
    (hreason : Engine.exitReason plan p bar force = some reason) (hne : reason ≠ .endOfSession) :
    Fair (e.latch symbol plan p bar force).fired p := by
  obtain ⟨hmem, hopen, hsym⟩ := h.single.openPositionFor_eq_some.1 hp
  rcases Option.or_eq_some_iff.1 hreason with hold | ⟨-, hprice⟩
  · rcases Option.or_eq_some_iff.1 hold with hf | ⟨-, hr⟩
    · exact absurd (hforce reason hf) hne
    · exact fair_latch hmem hmem ((h.planned symbol plan reason hplan hr hne).opened p hmem hopen hsym)
  · apply fair_fired
    rw [hprice]
    rfl

theorem latch (h : Kept e) (hp : e.state.openPositionFor symbol = some p) {plan : Plan}
    (hplan : e.plans symbol = some plan) (bar : Bar) (force : Option ExitReason)
    (hforce : ∀ r, force = some r → r = .endOfSession) : Kept (e.latch symbol plan p bar force) := by
  have hmem := (h.single.openPositionFor_eq_some.1 hp).1
  let fired := (e.latch symbol plan p bar force).fired
  have hmono : ∀ x ∈ e.state.positions.rows, Fair e.fired x → Fair fired x := fun x hx => fair_latch hx hmem
  have hkept : Kept { e with fired } :=
    { single := h.single
      saved := fun x hx r hr hne => hmono x hx (h.saved x hx r hr hne)
      planned := fun symbol' x r hx hr hne => (h.planned symbol' x r hx hr hne).mono hmono }
  cases hold : plan.exitReason with
  | some r₀ =>
    have hlatch : e.latch symbol plan p bar force =
        { e with fired }.setPlan symbol (some { plan with exitReason := some r₀ }) := by
      simp only [Engine.latch, hold, Engine.setPlan, Option.some_or, fired]
    rw [hlatch]
    apply hkept.setPlan
    intro x r hx hr hne
    obtain rfl := Option.some.inj hx
    exact (h.planned symbol plan r hplan (by rw [hold]; exact hr) hne).mono hmono
  | none =>
    cases hreason : Engine.exitReason plan p bar force with
    | none =>
      have hlatch : e.latch symbol plan p bar force =
          { e with fired }.setPlan symbol (some { plan with exitReason := none }) := by
        simp only [Engine.latch, hold, hreason, Engine.setPlan, Option.or_none, fired]
      rw [hlatch]
      apply hkept.setPlan
      intro x r hx hr _
      obtain rfl := Option.some.inj hx
      cases hr
    | some r₀ =>
      have hlatch : e.latch symbol plan p bar force =
          { e with fired, state := markExitTriggered e.state symbol r₀ }.setPlan symbol
            (some { plan with exitReason := some r₀ }) := by
        simp only [Engine.latch, hold, hreason, Engine.setPlan, Option.none_or, fired]
      have htrigger := step_trigger h.single symbol r₀
      rw [hlatch]
      apply (hkept.step htrigger ?_).setPlan
      · intro x r hx hr hne
        obtain rfl := Option.some.inj hx
        obtain rfl := Option.some.inj hr
        exact (h.single.owned hp (h.fair_exitReason hp hplan hforce hreason hne)).step h.single htrigger fun _ _ => Fair.grows
      · rintro p' ⟨q, hq, rfl⟩ r hr hne
        rw [hp] at hq
        obtain rfl := Option.some.inj hq
        obtain rfl := Option.some.inj hr
        exact h.fair_exitReason hp hplan hforce hreason hne

end Kept

/-! ## Orders -/

theorem changes_recordSubmission {i : IntentId} {q : Intent} {answer : SubmitAnswer} (hq : s.intents.get i = some q)
    (hu : q.unsettled = true) : Changes cfg s (recordSubmission s i answer) := by
  have hstatus : ∀ status, Changes cfg s (s.setIntentStatus i status) := by
    intro status
    apply Relation.ReflTransGen.single
    apply Change.intents
    intro x hx hid _
    have hx' : s.intents.get i = some x := Table.get_eq_some.2 ⟨hx, of_decide_eq_true hid⟩
    rw [hq] at hx'
    rw [← Option.some.inj hx']
    exact hu
  unfold recordSubmission
  split
  · exact hstatus _
  · split
    · exact hstatus _
    · exact Relation.ReflTransGen.single (.record _ hq hu)

/-- An order that was acknowledged is not terminal on file. -/
theorem live_recordOrder {i : IntentId} {id : BrokerOrderId} :
    ∀ o, (s.recordOrder i id).orders.get id = some o → o.status.terminal = false := by
  intro o ho
  obtain ⟨hmem, hid⟩ := Table.get_eq_some.1 ho
  rcases mem_recordOrder_iff.1 hmem with ⟨-, hne⟩ | rfl
  · exact absurd hid hne
  · rfl

theorem orderIntent_cases {r : OrderRequest} {submit : Option SubmitAnswer} {out : Submitted}
    (h : orderIntent cfg s r submit = (t, out)) :
    (t = s ∧ out = .refused) ∨ ∃ i u, admitIntent cfg s r = .ok (i, u) ∧ Changes cfg u t ∧
      ∀ id, out = .accepted id → ∀ o, t.orders.get id = some o → o.status.terminal = false := by
  unfold orderIntent at h
  split at h
  · obtain ⟨rfl, rfl⟩ := Prod.mk.inj h
    exact .inl ⟨rfl, rfl⟩
  rename_i i u hadm
  obtain ⟨hq, -⟩ := get_admitted hadm
  have hsent : ∀ answer, Changes cfg u (recordSubmission u i answer) := fun _ => changes_recordSubmission hq rfl
  split at h
  · obtain ⟨rfl, rfl⟩ := Prod.mk.inj h
    exact .inr ⟨i, u, hadm, .refl, by rintro _ ⟨⟩⟩
  · obtain ⟨rfl, rfl⟩ := Prod.mk.inj h
    exact .inr ⟨i, u, hadm, hsent _, by rintro _ ⟨⟩⟩
  · rename_i id
    obtain ⟨rfl, hout⟩ := Prod.mk.inj h
    refine .inr ⟨i, u, hadm, hsent _, fun id' hid => ?_⟩
    rw [← hout] at hid
    split at hid
    · cases hid
    · rename_i hne
      obtain rfl := Submitted.accepted.inj hid
      rw [recordSubmission, if_neg hne]
      exact live_recordOrder

namespace Kept

/-- The engine after an admission: only a symbol without a plan is entered. -/
theorem admitted (h : Kept e) {r : OrderRequest} {i : IntentId} (hadm : admitIntent cfg e.state r = .ok (i, t))
    (hbuy : i.side = .buy → e.plans i.symbol = none) : Kept { e with state := t } := by
  cases hside : i.side with
  | sell => exact h.changes (Relation.ReflTransGen.single (.admitSell hadm hside))
  | buy =>
    refine { single := h.single.admitBuy hadm hside, saved := ?_, planned := ?_ }
    · obtain ⟨-, -, budgets, -, rfl⟩ := admitIntent_ok hadm
      exact h.saved
    · intro symbol plan r hplan hr hne
      apply (h.planned symbol plan r hplan hr hne).admitBuy hadm
      rintro rfl
      rw [hbuy hside] at hplan
      cases hplan

/-- The engine after `order_intent`, and after the poll of an accepted order. -/
theorem orderIntent (h : Kept e) {r : OrderRequest} {submit : Option SubmitAnswer} {out : Submitted}
    (hout : orderIntent cfg e.state r submit = (t, out))
    (hbuy : r.side = some .buy → e.plans r.symbol = none) :
    Kept { e with state := t } ∧ ∀ id, out = .accepted id → ∀ rows atEnd,
      Kept { e with state := pollOrderUntilTerminal t id rows atEnd } := by
  rcases orderIntent_cases hout with ⟨rfl, rfl⟩ | ⟨i, u, hadm, hc, hlive⟩
  · exact ⟨h, nofun⟩
  · have hkept : Kept { e with state := t } := by
      obtain ⟨hwell, -⟩ := admitIntent_ok hadm
      obtain ⟨hsym, hside, -⟩ := wellFormed_ok hwell
      have hadmitted := h.admitted hadm fun hb => by rw [hsym]; exact hbuy (by rw [hside, hb])
      exact hadmitted.changes hc
    refine ⟨hkept, fun id hid rows atEnd => ?_⟩
    have hpoll : Changes cfg t (pollOrderUntilTerminal t id rows atEnd) := changes_pollRounds (hlive id hid)
    exact hkept.changes hpoll

end Kept

/-- An entry is let through only without a plan for the symbol. -/
theorem plan_of_entryEligible {sig : EntrySignal} (h : e.entryEligible cfg sig) : e.plans sig.symbol = none := by
  cases hplan : e.plans sig.symbol with
  | none => rfl
  | some plan =>
    have hhold : (e.entrySituation cfg sig).decide = (.hold, .noAction) := by
      simp [Situation.decide, Situation.recommendation, Engine.entrySituation, hplan]
    simp [Engine.entryEligible, hhold] at h

namespace Kept

theorem handleEntry (h : Kept e) (sig : EntrySignal) (d : Dealing) : Kept (e.handleEntry cfg sig d).engine := by
  unfold Engine.handleEntry
  split
  · exact h
  split
  · exact h
  rename_i heligible
  have hplan : e.plans sig.symbol = none := plan_of_entryEligible (by simpa using heligible)
  dsimp only
  split
  · rename_i t hout
    exact (h.orderIntent hout fun _ => hplan).1
  · rename_i t hout
    exact (h.orderIntent hout fun _ => hplan).1
  · rename_i t id hout
    apply ((h.orderIntent hout fun _ => hplan).2 id rfl d.poll d.pollEnd).setPlan
    intro x r hx hr _
    obtain rfl := Option.some.inj hx
    cases hr

theorem sellOut (h : Kept e) (symbol : Symbol) (plan : Plan) (bar : Bar) (reason : ExitReason) (d : Dealing) :
    Kept (e.sellOut cfg symbol plan bar reason d).engine := by
  unfold Engine.sellOut
  split
  · exact h
  dsimp only
  split
  · rename_i t hout
    exact (h.orderIntent hout nofun).1
  · rename_i t hout
    exact (h.orderIntent hout nofun).1
  · rename_i t id hout
    have hpolled := (h.orderIntent hout nofun).2 id rfl d.poll d.pollEnd
    split
    · exact hpolled
    · dsimp only
      split
      · exact hpolled.setPlan nofun
      · exact hpolled

theorem checkExit (h : Kept e) (symbol : Symbol) (bar : Bar) {force : Option ExitReason} (d : Dealing)
    (hforce : ∀ r, force = some r → r = .endOfSession) : Kept (e.checkExit cfg symbol bar force d).engine := by
  unfold Engine.checkExit
  split
  · exact h
  rename_i plan hplan
  split
  · dsimp only
    split
    · exact h
    · exact h.setPlan nofun
  rename_i p hp
  have hlatched := h.latch hp hplan bar force hforce
  dsimp only
  split
  · exact hlatched
  split
  · exact hlatched
  · exact hlatched.sellOut ..

theorem engineStep (h : Kept e) {e' : Engine} (hs : EngineStep cfg e e') : Kept e' := by
  cases hs with
  | part x =>
    cases x with
    | flag symbol => exact h.flag symbol
    | entry sig d => exact h.handleEntry sig d
    | exit symbol bar forced d =>
      apply h.checkExit
      intro r hr
      cases forced
      · cases hr
      · exact (Option.some.inj hr).symm
  | change hc => exact h.changes (Relation.ReflTransGen.single hc)
  | restart => exact h.restart

theorem of_reached (h : Reached cfg e) : Kept e := by
  induction h with
  | refl =>
    have hsingle : Single {} :=
      { orderSymbol := fun _ ho => (List.not_mem_nil ho).elim
        entry := fun _ hp => (List.not_mem_nil hp).elim
        tracked := nofun
        opened := fun _ hp => (List.not_mem_nil hp).elim
        own := fun _ ho => (List.not_mem_nil ho).elim
        filed := fun _ ho => (List.not_mem_nil ho).elim
        one := fun _ ho => (List.not_mem_nil ho).elim
        alone := fun _ hq => (List.not_mem_nil hq).elim }
    exact ⟨hsingle, fun _ hp => (List.not_mem_nil hp).elim, nofun⟩
  | tail _ hs ih => exact ih.engineStep hs

end Kept

/-! ## Symbols that an order is not about -/

section OtherSymbols

variable {o : Order} {upd : Update}

theorem openPositionFor_congr {s' : LifecycleState} (hb : s'.openPositionBySymbol symbol = s.openPositionBySymbol symbol)
    (hg : ∀ k, s.openPositionBySymbol symbol = some k → s'.positions.get k = s.positions.get k) :
    s'.openPositionFor symbol = s.openPositionFor symbol := by
  have hbind : (s'.openPositionBySymbol symbol).bind s'.positions.get =
      (s.openPositionBySymbol symbol).bind s.positions.get := by
    rw [hb]
    cases hk : s.openPositionBySymbol symbol with
    | none => rfl
    | some k => exact hg k hk
  unfold LifecycleState.openPositionFor
  rw [hbind]

theorem openPositionFor_applySellFill (h : Single s) (hne : symbol ≠ o.symbol) {q d : ℚ} {fp : Option ℚ} :
    (applySellFill s o.symbol q d fp).openPositionFor symbol = s.openPositionFor symbol := by
  unfold applySellFill
  split
  · rfl
  rename_i p hp
  obtain ⟨k, hk, hget⟩ := Option.bind_eq_some_iff.1 hp
  have hid := Table.key_of_get hget
  apply openPositionFor_congr
  · dsimp only
    split
    · exact Function.update_of_ne hne ..
    · rfl
  · intro k' hk'
    have hother : k' ≠ p.id := fun he => hne (by rw [← h.tracked _ _ hk', he, hid, h.tracked _ _ hk])
    dsimp only
    rw [Table.get_update_of_ne hother]

theorem openPositionFor_putPosition (h : Single s) {p' : Position} (hne : symbol ≠ o.symbol)
    (hid : p'.id.entry.symbol = o.symbol) : (s.putPosition o.symbol p').openPositionFor symbol = s.openPositionFor symbol := by
  apply openPositionFor_congr
  · show (if p'.status = .opened then _ else s.openPositionBySymbol) symbol = _
    split
    · exact Function.update_of_ne hne ..
    · rfl
  · intro k hk
    have hother : k ≠ p'.id := fun he => hne (by rw [← h.tracked _ _ hk, he, hid])
    unfold LifecycleState.putPosition
    dsimp only
    rw [Table.get_upsert_of_ne hother]

theorem openPositionFor_acceptUpdate (h : Single s) (ho : o ∈ s.orders.rows) (hne : symbol ≠ o.symbol) :
    (acceptUpdate s o upd).openPositionFor symbol = s.openPositionFor symbol := by
  unfold acceptUpdate
  split
  · rfl
  rename_i hterminal
  have hupdated : Single (s.updateOrder o.id upd) :=
    h.step (h.step_of_positions (R := fun _ => False) rfl rfl
      (updated_orders h ho (Bool.eq_false_of_not_eq_true hterminal)) same_intents fun _ hk => hk)
  split
  · unfold applyFill
    dsimp only
    split
    · rfl
    rename_i i hi
    have hid : i.id = o.intentId := Table.key_of_get hi
    have hsym : i.id.symbol = o.symbol := by rw [hid, h.orderSymbol o ho]
    split
    · exact openPositionFor_applySellFill hupdated hne
    · unfold applyBuyFill
      split
      · exact openPositionFor_putPosition hupdated hne hsym
      rename_i p hp
      split
      · rfl
      split
      · rfl
      · apply openPositionFor_putPosition hupdated hne
        show p.id.entry.symbol = _
        rw [Table.key_of_get hp, hsym]
  · rfl

/-- The order that a poll is about belongs to another symbol. -/
def About (s : LifecycleState) (id : BrokerOrderId) (symbol : Symbol) : Prop :=
  ∀ o, s.orders.get id = some o → o.symbol = symbol

theorem about_applyBrokerUpdate {id : BrokerOrderId} {r : BrokerReport} (h : About s id symbol) :
    About (applyBrokerUpdate s id r) id symbol := by
  unfold applyBrokerUpdate
  split
  · exact h
  rename_i order horder
  split
  · exact h
  intro o ho
  rw [orders_acceptUpdate] at ho
  split at ho
  · exact h o ho
  · obtain ⟨hmem, hid⟩ := Table.get_eq_some.1 ho
    rcases (mem_updateOrder (Table.mem_of_get horder)).1 hmem with ⟨-, hne⟩ | rfl
    · exact absurd (by rw [hid, Table.key_of_get horder]) hne
    · exact h order horder

theorem openPositionFor_pollRounds {symbol' : Symbol} {id : BrokerOrderId} {seen : StatusText} {atEnd : PollEnd}
    {rows : List OrderRow} (h : Single s) (ha : About s id symbol') (hne : symbol ≠ symbol') :
    (pollRounds s id seen atEnd rows).openPositionFor symbol = s.openPositionFor symbol := by
  have hread : ∀ {s : LifecycleState} {seen : StatusText} {r : BrokerReport}, Single s → About s id symbol' →
      (pollRead s id seen r).openPositionFor symbol = s.openPositionFor symbol := by
    intro s seen r h ha
    unfold pollRead
    split
    · unfold applyBrokerUpdate
      split
      · rfl
      rename_i order horder
      split
      · rfl
      · exact openPositionFor_acceptUpdate h (Table.mem_of_get horder) (by rw [ha order horder]; exact hne)
    · rfl
  induction rows generalizing s seen with
  | nil =>
    unfold pollRounds
    split <;> rfl
  | cons row rows ih =>
    unfold pollRounds
    split
    · rfl
    rename_i r _
    split
    · exact hread h ha
    · have hsingle : Single (pollRead s id seen r) := by
        unfold pollRead
        split
        · exact h.step (step_report (R := fun _ => False) h id r)
        · exact h
      have habout : About (pollRead s id seen r) id symbol' := by
        unfold pollRead
        split
        · exact about_applyBrokerUpdate ha
        · exact ha
      rw [ih hsingle habout, hread h ha]

end OtherSymbols

/-! ## What a part does to the symbols -/

theorem positions_recordSubmission {i : IntentId} {answer : SubmitAnswer} :
    (recordSubmission s i answer).positions = s.positions ∧
      (recordSubmission s i answer).openPositionBySymbol = s.openPositionBySymbol := by
  unfold recordSubmission
  split
  · exact ⟨rfl, rfl⟩
  · split <;> exact ⟨rfl, rfl⟩

/-- `order_intent` leaves the positions alone, and an order that it records is about the symbol of the request. -/
theorem orderIntent_positions {r : OrderRequest} {submit : Option SubmitAnswer} {out : Submitted}
    (h : orderIntent cfg s r submit = (t, out)) :
    (∀ symbol, t.openPositionFor symbol = s.openPositionFor symbol) ∧
      ∀ id, out = .accepted id → About t id r.symbol := by
  unfold orderIntent at h
  split at h
  · obtain ⟨rfl, rfl⟩ := Prod.mk.inj h
    exact ⟨fun _ => rfl, nofun⟩
  rename_i i u hadm
  have hsym : i.symbol = r.symbol := (wellFormed_ok (admitIntent_ok hadm).1).1
  have hsame : ∀ symbol, u.openPositionFor symbol = s.openPositionFor symbol := by
    intro symbol
    obtain ⟨-, -, budgets, -, rfl⟩ := admitIntent_ok hadm
    rfl
  have hrecorded : ∀ answer symbol, (recordSubmission u i answer).openPositionFor symbol = s.openPositionFor symbol := by
    intro answer symbol
    obtain ⟨hp, hb⟩ := @positions_recordSubmission u i answer
    rw [← hsame symbol]
    apply openPositionFor_congr
    · rw [hb]
    · intro k _
      rw [hp]
  split at h
  · obtain ⟨rfl, rfl⟩ := Prod.mk.inj h
    exact ⟨hsame, nofun⟩
  · obtain ⟨rfl, rfl⟩ := Prod.mk.inj h
    exact ⟨hrecorded _, nofun⟩
  · obtain ⟨rfl, hout⟩ := Prod.mk.inj h
    refine ⟨hrecorded _, fun id' hid o ho => ?_⟩
    rw [← hout] at hid
    split at hid
    · cases hid
    · rename_i hne
      obtain rfl := Submitted.accepted.inj hid
      rw [recordSubmission, if_neg hne] at ho
      obtain ⟨hmem, hid⟩ := Table.get_eq_some.1 ho
      rcases mem_recordOrder_iff.1 hmem with ⟨-, hne⟩ | rfl
      · exact absurd hid hne
      · exact hsym

/-- Nothing has changed for the symbol. -/
structure Beside (e e' : Engine) (symbol : Symbol) : Prop where
  plans : e'.plans symbol = e.plans symbol
  opened : e'.state.openPositionFor symbol = e.state.openPositionFor symbol

/-- An open position of the symbol has a plan. -/
def Covered (e : Engine) (symbol : Symbol) : Prop := (e.state.openPositionFor symbol).isSome → (e.plans symbol).isSome

/-- The plan of the symbol has an exit reason. -/
def Reasoned (e : Engine) (symbol : Symbol) : Prop := ∀ plan, e.plans symbol = some plan → plan.exitReason.isSome

theorem Beside.trans {e₁ e₂ e₃ : Engine} (h : Beside e₁ e₂ symbol) (h' : Beside e₂ e₃ symbol) : Beside e₁ e₃ symbol :=
  ⟨h'.plans.trans h.plans, h'.opened.trans h.opened⟩

theorem Beside.covered {e' : Engine} (h : Beside e e' symbol) (hc : Covered e symbol) : Covered e' symbol := by
  unfold Covered
  rw [h.plans, h.opened]
  exact hc

theorem Beside.reasoned {e' : Engine} (h : Beside e e' symbol) (hr : Reasoned e symbol) : Reasoned e' symbol := by
  unfold Reasoned
  rw [h.plans]
  exact hr

theorem beside_setPlan {symbol' : Symbol} {plan : Option Plan} (h : symbol ≠ symbol') :
    Beside e (e.setPlan symbol' plan) symbol := ⟨Engine.plans_setPlan_of_ne e h, rfl⟩

section Parts

variable {symbol' : Symbol} {r : OrderRequest} {submit : Option SubmitAnswer} {out : Submitted}

theorem beside_orderIntent (h : orderIntent cfg e.state r submit = (t, out)) : Beside e { e with state := t } symbol :=
  ⟨rfl, (orderIntent_positions h).1 symbol⟩

theorem beside_poll (hk : Single t) {id : BrokerOrderId} (rows : List OrderRow) (atEnd : PollEnd)
    (ha : About t id symbol') (hne : symbol ≠ symbol') :
    Beside { e with state := t } { e with state := pollOrderUntilTerminal t id rows atEnd } symbol :=
  ⟨rfl, openPositionFor_pollRounds hk ha hne⟩

theorem beside_handleEntry (hk : Kept e) {sig : EntrySignal} {d : Dealing} (hne : symbol ≠ sig.symbol) :
    Beside e (e.handleEntry cfg sig d).engine symbol := by
  unfold Engine.handleEntry
  split
  · exact ⟨rfl, rfl⟩
  split
  · exact ⟨rfl, rfl⟩
  rename_i heligible
  have hplan : e.plans sig.symbol = none := plan_of_entryEligible (by simpa using heligible)
  dsimp only
  split
  · rename_i t hout
    exact beside_orderIntent hout
  · rename_i t hout
    exact beside_orderIntent hout
  · rename_i t id hout
    have hsingle : Single t := (hk.orderIntent hout fun _ => hplan).1.single
    have hpolled := (beside_orderIntent hout).trans
      (beside_poll hsingle d.poll d.pollEnd ((orderIntent_positions hout).2 id rfl) hne)
    exact hpolled.trans (beside_setPlan hne)

theorem covered_handleEntry {sig : EntrySignal} {d : Dealing} (hc : Covered e sig.symbol) :
    Covered (e.handleEntry cfg sig d).engine sig.symbol := by
  unfold Engine.handleEntry
  split
  · exact hc
  split
  · exact hc
  dsimp only
  split
  · rename_i t hout
    exact (beside_orderIntent hout).covered hc
  · rename_i t hout
    exact (beside_orderIntent hout).covered hc
  · intro _
    rw [Engine.plans_setPlan_self]
    rfl

/-- While the symbol is held, an entry changes nothing. -/
theorem engine_handleEntry {sig : EntrySignal} {d : Dealing} (hopen : (e.state.openPositionFor sig.symbol).isSome) :
    (e.handleEntry cfg sig d).engine = e := by
  have hout : orderIntent cfg e.state (e.entryRequest cfg sig) d.submit = (e.state, .refused) := by
    unfold orderIntent
    split
    · rfl
    · rename_i i u hadm
      obtain ⟨hwell, -, budgets, hguards, -⟩ := admitIntent_ok hadm
      obtain ⟨-, hside, -⟩ := wellFormed_ok hwell
      rw [guards, ← Option.some.inj hside] at hguards
      have hflat : e.state.openPositionFor sig.symbol = none := (buyGuards_ok hguards).1
      rw [hflat] at hopen
      cases hopen
  unfold Engine.handleEntry
  split
  · rfl
  split
  · rfl
  · dsimp only
    rw [hout]

theorem beside_sellOut (hk : Kept e) {plan : Plan} {bar : Bar} {reason : ExitReason} {d : Dealing}
    (hne : symbol ≠ symbol') : Beside e (e.sellOut cfg symbol' plan bar reason d).engine symbol := by
  unfold Engine.sellOut
  split
  · exact ⟨rfl, rfl⟩
  dsimp only
  split
  · rename_i t hout
    exact beside_orderIntent hout
  · rename_i t hout
    exact beside_orderIntent hout
  · rename_i t id hout
    have hsingle : Single t := (hk.orderIntent hout nofun).1.single
    have hpolled : Beside e _ symbol := (beside_orderIntent hout).trans
      (beside_poll hsingle d.poll d.pollEnd ((orderIntent_positions hout).2 id rfl) hne)
    split
    · exact hpolled
    · dsimp only
      split
      · exact hpolled.trans (beside_setPlan hne)
      · exact hpolled

/-- A sale keeps the plan, or drops it when nothing is open. -/
theorem plans_sellOut {plan : Plan} {bar : Bar} {reason : ExitReason} {d : Dealing} :
    (e.sellOut cfg symbol plan bar reason d).engine.plans symbol = e.plans symbol ∨
      (e.sellOut cfg symbol plan bar reason d).engine.plans symbol = none ∧
        (e.sellOut cfg symbol plan bar reason d).engine.state.openPositionFor symbol = none := by
  unfold Engine.sellOut
  split
  · exact .inl rfl
  dsimp only
  split
  · exact .inl rfl
  · exact .inl rfl
  · split
    · exact .inl rfl
    · dsimp only
      split
      · rename_i hflat
        exact .inr ⟨Engine.plans_setPlan_self .., Option.isNone_iff_eq_none.1 hflat⟩
      · exact .inl rfl

theorem beside_latch (hk : Kept e) (hp : e.state.openPositionFor symbol' = some p) {plan : Plan} {bar : Bar}
    {force : Option ExitReason} (hne : symbol ≠ symbol') : Beside e (e.latch symbol' plan p bar force) symbol := by
  refine ⟨Function.update_of_ne hne .., ?_⟩
  have hmark : ∀ r, (markExitTriggered e.state symbol' r).openPositionFor symbol = e.state.openPositionFor symbol := by
    intro r
    unfold markExitTriggered
    rw [hp]
    dsimp only
    split
    · rfl
    · refine openPositionFor_congr (by rfl) fun k hk' => ?_
      obtain ⟨hmem, -, hsym⟩ := hk.single.openPositionFor_eq_some.1 hp
      have hother : k ≠ p.id := fun he =>
        hne (by rw [← hk.single.tracked _ _ hk', he, (hk.single.entry p hmem).1, hsym])
      dsimp only
      rw [Table.get_update_of_ne hother]
  unfold Engine.latch
  dsimp only
  split
  · exact hmark _
  · rfl

theorem plans_latch {plan : Plan} {bar : Bar} {force : Option ExitReason} :
    (e.latch symbol plan p bar force).plans symbol =
      some { plan with exitReason := plan.exitReason.or (Engine.exitReason plan p bar force) } :=
  Function.update_self ..

theorem beside_checkExit (hk : Kept e) {bar : Bar} {force : Option ExitReason} {d : Dealing}
    (hforce : ∀ r, force = some r → r = .endOfSession) (hne : symbol ≠ symbol') :
    Beside e (e.checkExit cfg symbol' bar force d).engine symbol := by
  unfold Engine.checkExit
  split
  · exact ⟨rfl, rfl⟩
  rename_i plan hplan
  split
  · dsimp only
    split
    · exact ⟨rfl, rfl⟩
    · exact beside_setPlan hne
  rename_i p hp
  have hlatched : Beside e (e.latch symbol' plan p bar force) symbol := beside_latch hk hp hne
  dsimp only
  split
  · exact hlatched
  split
  · exact hlatched
  · exact hlatched.trans (beside_sellOut (hk.latch hp hplan bar force hforce) hne)

theorem covered_checkExit {bar : Bar} {force : Option ExitReason} {d : Dealing} (hc : Covered e symbol) :
    Covered (e.checkExit cfg symbol bar force d).engine symbol := by
  unfold Engine.checkExit
  split
  · exact hc
  rename_i plan _
  split
  · rename_i hflat
    dsimp only
    split
    · exact hc
    · intro hopen
      have hnone : (e.setPlan symbol none).state.openPositionFor symbol = none := hflat
      rw [hnone] at hopen
      cases hopen
  rename_i p hp
  have hlatched : Covered (e.latch symbol plan p bar force) symbol := fun _ => by rw [plans_latch]; rfl
  dsimp only
  split
  · exact hlatched
  split
  · exact hlatched
  · intro hopen
    rcases @plans_sellOut cfg (e.latch symbol plan p bar force) symbol plan bar _ d with hsame | ⟨-, hflat⟩
    · rw [hsame, plans_latch]
      rfl
    · rw [hflat] at hopen
      cases hopen

end Parts

end TalonX.Piv
