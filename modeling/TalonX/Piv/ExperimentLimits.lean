import TalonX.Piv.ConcurrentExposure

/-!
# The limits of an experiment

- `World.exposure_subset`: in an orderly run the guards count every symbol in which an experiment is live or held;
- `experimental_budget_kept`: whenever an entry of an experiment is sent, its limits hold; a refusal changes nothing.
-/

set_option autoImplicit false

namespace TalonX.Piv

open Transact V2 World EntryContext

variable {cfg : Config} {s t : LifecycleState} {w : World} {S S' : Session} {X : String} {i : IntentId} {r : OrderRequest}

/-! ## What the guards count -/

theorem stake_isSome {q : Intent} (h : (q.stake X).isSome) : q.id.side = .buy ∧ q.experimentalId = some X := by
  unfold Intent.stake at h
  split at h
  · rename_i hentry
    exact hentry.2
  · cases h

/-- The guards count every symbol in which the experiment is live or held. -/
theorem World.exposure_subset (ht : Traced w)
    (hfol : ∀ b ∈ w.broker.rows, ∀ q, w.state.intents.get b.intentId = some q → q.status ≠ .orderIntent) (X : String) :
    w.exposure X ⊆ w.state.exposedSymbols X := by
  intro symbol hsymbol
  obtain ⟨b, hb, rfl⟩ := List.mem_map.1 (List.mem_toFinset.1 hsymbol)
  obtain ⟨hentry, hexposed⟩ := List.mem_filter.1 hb
  obtain ⟨hbroker, hstake⟩ := List.mem_filter.1 hentry
  obtain ⟨q, hq, hr, hc, hs⟩ := ht.intent b hbroker
  rw [hq, Option.bind_some] at hstake
  obtain ⟨hbuy, hexp⟩ := stake_isSome hstake
  have hid : q.id = b.intentId := Table.key_of_get hq
  unfold LifecycleState.exposedSymbols
  rw [List.mem_toFinset, List.mem_append, List.mem_append]
  cases hst : q.status with
  | orderIntent => exact absurd hst (hfol b hbroker q hq)
  | rejected => exact absurd hst hr
  | confirmedNotSubmitted => exact absurd hst hc
  | submitFailedUncertain =>
    refine .inr (List.mem_map.2 ⟨q, List.mem_filter.2 ⟨Table.mem_of_get hq, ?_⟩, by rw [hid]⟩)
    simp [hst, hbuy, hexp]
  | submitted =>
    obtain ⟨o, ho, hoid⟩ := hs hst
    obtain ⟨b', hb', hm⟩ := ht.matched o ho
    obtain rfl := w.broker.eq_of_key hb' hbroker (hm.id.trans hoid)
    cases hterm : o.status.terminal with
    | false =>
      refine .inl (.inr (List.mem_map.2 ⟨o, List.mem_filter.2 ⟨ho, ?_⟩, ?_⟩))
      · simp [hterm, ← hm.intent, hq, hbuy, hexp]
      · rw [(ht.filed o ho).1, hm.intent]
    | true =>
      -- the order is closed, so it is exposed through its position
      obtain ⟨hdone, hfilled⟩ := hm.final hterm
      unfold World.exposed at hexposed
      simp only [hdone, Bool.not_true, Bool.false_or, Bool.and_eq_true, decide_eq_true_eq, Bool.not_eq_true'] at hexposed
      obtain ⟨hpos, hopen⟩ := hexposed
      have hbuy' : o.intentId.side = .buy := by rw [← hm.intent, ← hid]; exact hbuy
      obtain ⟨p, hp⟩ := Option.isSome_iff_exists.1 (ht.booked o ho hbuy' hterm (by rw [hfilled]; exact hpos))
      obtain ⟨hmem, hpid⟩ := Table.get_eq_some.1 hp
      obtain ⟨hps, q', hq', hpe⟩ := ht.positions p hmem
      rw [hpid] at hps hq'
      rw [← hm.intent, hq] at hq'
      obtain rfl := Option.some.inj hq'
      have hstatus : p.status = .opened := by
        rw [hm.intent, hp] at hopen
        cases hps : p.status with
        | opened => rfl
        | closed => simp [hps] at hopen
      refine .inl (.inl (List.mem_map.2 ⟨p, List.mem_filter.2 ⟨hmem, ?_⟩, ?_⟩))
      · simp [hstatus, ← hpe, hexp]
      · rw [hps, hm.intent]

/-- Only the symbol of the entry is new to the exposure of its experiment. -/
theorem exposure_attempt {sub : Submission} {broker : Table BrokerOrder.id}
    (ha : admitIntent cfg w.state r = .ok (i, s)) (hr : w.receive i sub = some broker) (X : String) :
    World.exposure { w with state := sub.answer.elim s (recordSubmission s i), broker } X ⊆
      insert i.symbol (w.exposure X) := by
  have hpositions : (sub.answer.elim s (recordSubmission s i)).positions = w.state.positions := by
    obtain ⟨-, -, budgets, -, rfl⟩ := admitIntent_ok ha
    cases sub.answer with
    | none => rfl
    | some answer =>
      cases answer with
      | raised => rfl
      | answered id =>
        simp only [Option.elim_some, recordSubmission]
        split <;> rfl
  intro symbol hsymbol
  obtain ⟨b, hb, rfl⟩ := List.mem_map.1 (List.mem_toFinset.1 hsymbol)
  obtain ⟨hentry, hexposed⟩ := List.mem_filter.1 hb
  obtain ⟨hbroker, hstake⟩ := List.mem_filter.1 hentry
  rw [Finset.mem_insert]
  by_cases hbi : b.intentId = i
  · exact .inl (by rw [hbi])
  · refine .inr (List.mem_toFinset.2 (List.mem_map.2 ⟨b, List.mem_filter.2 ⟨List.mem_filter.2 ⟨?_, ?_⟩, ?_⟩, rfl⟩))
    · exact (mem_received hr hbroker).resolve_right hbi
    · rw [← get_attempted_of_ne ha hbi]
      exact hstake
    · unfold World.exposed at hexposed ⊢
      rw [← hpositions]
      exact hexposed

/-! ## What holds when an entry is sent -/

/-- The limits of an authorization, in the world after an entry under it: the entries that have reserved, and those of them
that the broker has received; what they have reserved. -/
structure WithinBudget (experimentId : String) (paper : ExperimentalPaperPermission) (w : World) : Prop where
  count : (w.state.stakes experimentId).length ≤ paper.maxEntryCount
  received : (w.entries experimentId).length ≤ (w.state.stakes experimentId).length
  notional : (w.state.stakes experimentId).sum ≤ paper.maxReferenceNotionalBudget + shareTolerance

/-- In every run: a refused attempt changes nothing, and an entry is sent within the limits of the authorization that is in
force at that moment; in an orderly run also within its concurrent exposure. -/
theorem experimental_budget_kept {c : EntryContext} {sub : Submission} (h : Session.Reach (fun _ _ => True) S)
    (hn : S.next (.attempt c r sub) = some S') :
    (∀ e, admitIntent c.config S.world.state r = .error e → S' = S) ∧
      ∀ i s, admitIntent c.config S.world.state r = .ok (i, s) → r.source = some .experimental → i.side = .buy →
        ∃ auth paper, c.authorization = some auth ∧ auth.paper = some paper ∧
          r.experimentalId = some auth.experimentId ∧ WithinBudget auth.experimentId paper S'.world ∧
          (Session.Reach Orderly S → (S'.world.exposure auth.experimentId).card ≤ paper.maxConcurrentExposure) := by
  obtain ⟨hkept', hfile'⟩ := (h.step trivial hn).kept
  obtain ⟨hrun, ⟨e, he, rfl⟩ | ⟨i, s, broker, ha, -, hr, rfl⟩⟩ := attempt_cases hn
  · refine ⟨fun _ _ => rfl, fun i s ha => ?_⟩
    rw [he] at ha
    cases ha
  refine ⟨fun e he => ?_, fun j s' ha' hsource hside => ?_⟩
  · rw [ha] at he
    cases he
  rw [ha] at ha'
  obtain ⟨rfl, rfl⟩ := Prod.mk.inj (Except.ok.inj ha')
  obtain ⟨-, -, s', auth, paper, budget, price, hp, -⟩ | ⟨hno, -⟩ := admitted_cases ha
  case inr => exact absurd ⟨hsource, hside⟩ hno
  have hstakes : (sub.answer.elim s (recordSubmission s i)).stakes auth.experimentId =
      S.world.state.stakes auth.experimentId ++ [price * r.quantity.getD 0] := by
    rw [(sameBudget_answer i sub.answer).stakes, stakes_passed ha hsource hside hp]
  obtain ⟨hcount, hsum⟩ := h.kept.1.validated hp.record
  refine ⟨auth, paper, hp.authorization, hp.permission, hp.experimentalId, ⟨?_, ?_, ?_⟩, fun horderly => ?_⟩
  · show ((sub.answer.elim s (recordSubmission s i)).stakes auth.experimentId).length ≤ _
    rw [hstakes, List.length_append, List.length_singleton, ← hcount]
    exact hp.count
  · exact entries_le_stakes hfile' auth.experimentId
  · show ((sub.answer.elim s (recordSubmission s i)).stakes auth.experimentId).sum ≤ _
    rw [hstakes, List.sum_append, List.sum_singleton, ← hsum]
    exact hp.notional
  · obtain ⟨htraced, hfollowed⟩ := horderly.traced
    have hcard := Finset.card_le_card (exposure_attempt ha hr auth.experimentId)
    have hinsert := Finset.card_insert_le i.symbol (S.world.exposure auth.experimentId)
    have hcounted := Finset.card_le_card (exposure_subset htraced (hfollowed hrun) auth.experimentId)
    have hlimit := hp.exposure
    refine (hcard.trans hinsert).trans ?_
    omega

/-! ## Runs on fixed inputs -/

theorem Session.Reach.of_run {ok : Session → SessionEvent → Prop} {es : List SessionEvent}
    (hok : ∀ e ∈ es, ∀ S, ok S e) : ∀ {S S' : Session}, Session.Reach ok S → S.run es = some S' → Session.Reach ok S' := by
  induction es with
  | nil =>
    intro S S' hS h
    obtain rfl := Option.some.inj h
    exact hS
  | cons e es ih =>
    intro S S' hS h
    obtain ⟨S₁, h₁, h₂⟩ := Option.bind_eq_some_iff.1 h
    exact ih (fun x hx => hok x (List.mem_cons_of_mem _ hx)) (hS.step (hok e List.mem_cons_self S) h₁) h₂

/-- One experiment: two entries, 100 in all, one symbol at a time. -/
def oneAtATime : ExperimentalAuthorization :=
  { experimentId := "X", operatorAcknowledgedUnvalidated := true, strategyId := "", strategyVersion := "", runtimeSha := ""
    configHash := "", allowedSymbols := ["AAPL", "MSFT"], tradingDateEt := "", sessionScope := "live", activatedAt := 0
    expiresAt := 10
    paper := some
      { enabled := true, accountIdBinding := "paper", maxQuantityPerEntry := 1, maxReferenceNotionalBudget := 100
        maxEntryCount := 2, maxConcurrentExposure := 1 } }

def underOneAtATime : EntryContext :=
  { authorization := some oneAtATime, accountId := some "paper", runtimeSha := none, configHash := none
    sessionScope := some "live", now := 5, enabledFor := fun _ => true }

def oneShare (symbol : Symbol) (price : ℚ) : OrderRequest :=
  { signalId := "s", symbol, side := some .buy, quantity := some 1, source := some .experimental
    referencePrice := some price, experimentalId := some "X" }

/-- The session is enabled. -/
def enabled : List SessionEvent := [.event (.session true false)]

theorem experimental_budget_kept_sample :
    ∃ S S' : Session, ({} : Session).run enabled = some S ∧
      S.next (.attempt underOneAtATime (oneShare "AAPL" 50) ⟨some "o1", some .raised⟩) = some S' ∧
      (S'.world.exposure "X").card ≤ 1 := by
  have hsent : (({} : Session).run enabled).bind (fun S =>
      (S.next (.attempt underOneAtATime (oneShare "AAPL" 50) ⟨some "o1", some .raised⟩)).bind fun S' =>
        match admitIntent underOneAtATime.config S.world.state (oneShare "AAPL" 50) with
        | .ok (i, _) => some (i.side, S'.world.exposure "X")
        | .error _ => none) = some (.buy, {"AAPL"}) := by
    decide +kernel
  obtain ⟨S, hrun, hrest⟩ := Option.bind_eq_some_iff.1 hsent
  obtain ⟨S', hn, hmatch⟩ := Option.bind_eq_some_iff.1 hrest
  refine ⟨S, S', hrun, hn, ?_⟩
  cases ha : admitIntent underOneAtATime.config S.world.state (oneShare "AAPL" 50) with
  | error e => simp [ha] at hmatch
  | ok admitted =>
    obtain ⟨i, s⟩ := admitted
    simp only [ha, Option.some.injEq, Prod.mk.injEq] at hmatch
    have hreach : ∀ ok : Session → SessionEvent → Prop, (∀ S, ok S (.event (.session true false))) →
        Session.Reach ok S := fun ok hok =>
      .of_run (fun e he S => by rw [List.mem_singleton.1 he]; exact hok S) .start hrun
    obtain ⟨auth, paper, hauth, hpaper, -, -, hexposure⟩ :=
      (experimental_budget_kept (hreach _ fun _ => trivial) hn).2 i s ha rfl hmatch.1
    obtain rfl := Option.some.inj hauth
    obtain rfl := Option.some.inj hpaper
    exact hexposure (hreach _ fun _ => trivial)

/-- The comparison with the budget has a slack: an entry that exceeds it by half of the slack is sent. -/
theorem notional_over_budget :
    ∃ S S' : Session, ({} : Session).run enabled = some S ∧
      S.next (.attempt underOneAtATime (oneShare "AAPL" (100 + 5 / 10 ^ 10)) ⟨some "o1", some (.answered "o1")⟩) = some S' ∧
      (S'.world.entries "X").length = 1 ∧ 100 < (S'.world.state.stakes "X").sum := by
  have hsent : (({} : Session).run enabled).bind (fun S =>
      (S.next (.attempt underOneAtATime (oneShare "AAPL" (100 + 5 / 10 ^ 10)) ⟨some "o1", some (.answered "o1")⟩)).map
        fun S' => ((S'.world.entries "X").length, (S'.world.state.stakes "X").sum)) = some (1, 100 + 5 / 10 ^ 10) := by
    decide +kernel
  obtain ⟨S, hrun, hrest⟩ := Option.bind_eq_some_iff.1 hsent
  obtain ⟨S', hn, hmap⟩ := Option.map_eq_some_iff.1 hrest
  simp only [Prod.mk.injEq] at hmap
  refine ⟨S, S', hrun, hn, hmap.1, ?_⟩
  rw [hmap.2]
  norm_num

/-- An entry that the broker accepts without an id is not counted: a second symbol is sent beside it. -/
example : (({} : Session).run (enabled ++
    [.attempt underOneAtATime (oneShare "AAPL" 50) ⟨some "o1", some (.answered "")⟩,
      .attempt underOneAtATime (oneShare "MSFT" 50) ⟨some "o2", some (.answered "o2")⟩])).map
        (fun S => (S.world.exposure "X").card) = some 2 := by
  decide +kernel

end TalonX.Piv
