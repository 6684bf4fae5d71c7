import TalonX.Piv.ExperimentRun
import TalonX.Piv.Change

/-!
# The budget of an experiment

- `stakes_next`: only the admission of an entry changes what is reserved;
- `BudgetsKept`: the budget record of every experiment is the count and the sum of its reservations; `Session.Reach.kept`: it is,
  in every run;
- `OnFile`: every order at the broker has its intent on file, and no intent has two; so the entries that the broker has
  received are at most those that have reserved (`entries_le_stakes`).
-/

set_option autoImplicit false

namespace TalonX.Piv

open Transact V2 World EntryContext

variable {cfg : Config} {s t : LifecycleState} {w w' : World} {S S' : Session} {X : String} {i : IntentId} {r : OrderRequest}

/-! ## What leaves the reservations alone -/

/-- Neither what is reserved nor the records of it differ, and the intents stay on file. -/
structure SameBudget (s t : LifecycleState) : Prop where
  stakes : ∀ X, t.stakes X = s.stakes X
  budgets : t.experimentalBudgets = s.experimentalBudgets
  filed : ∀ k, (s.intents.get k).isSome → (t.intents.get k).isSome

theorem SameBudget.trans {u : LifecycleState} (h : SameBudget s t) (h' : SameBudget t u) : SameBudget s u :=
  ⟨fun X => (h'.stakes X).trans (h.stakes X), h'.budgets.trans h.budgets, fun k hk => h'.filed k (h.filed k hk)⟩

theorem SameBudget.of_intents (hi : t.intents = s.intents) (hb : t.experimentalBudgets = s.experimentalBudgets) :
    SameBudget s t :=
  ⟨fun X => by unfold LifecycleState.stakes; rw [hi], hb, fun k hk => by rw [hi]; exact hk⟩

/-- A change of intents that keeps what they reserve. -/
theorem sameBudget_intents {p : Intent → Bool} {f : Intent → Intent} {hf : ∀ q, (f q).id = q.id}
    (hs : ∀ X q, (f q).stake X = q.stake X) : SameBudget s { s with intents := s.intents.update p f hf } := by
  refine ⟨fun X => ?_, rfl, fun k hk => ?_⟩
  case refine_2 => simpa only [Table.get_update, Option.isSome_map] using hk
  unfold LifecycleState.stakes
  dsimp only
  rw [Table.rows_update, updateRows, List.filterMap_map]
  refine List.filterMap_congr fun q _ => ?_
  simp only [Function.comp]
  split
  · exact hs X q
  · rfl

theorem sameBudget_updateIntent {i : IntentId} {f : Intent → Intent} {hf : ∀ q, (f q).id = q.id}
    (hs : ∀ X q, (f q).stake X = q.stake X) : SameBudget s (s.updateIntent i f hf) := sameBudget_intents hs

theorem sameBudget_setIntentStatus (i : IntentId) (status : IntentStatus) : SameBudget s (s.setIntentStatus i status) := by
  refine sameBudget_updateIntent (i := i) ?_
  exact fun _ _ => rfl

theorem sameBudget_recordOrder (i : IntentId) (id : BrokerOrderId) : SameBudget s (s.recordOrder i id) :=
  (sameBudget_setIntentStatus i .submitted).trans (.of_intents rfl rfl)

theorem sameBudget_promote : SameBudget s (promoteOrphanOrderIntents s) := by
  refine sameBudget_intents ?_
  exact fun _ _ => rfl

theorem sameBudget_recordSubmission (i : IntentId) (answer : SubmitAnswer) :
    SameBudget s (recordSubmission s i answer) := by
  cases answer with
  | raised => exact sameBudget_setIntentStatus i _
  | answered id =>
    simp only [recordSubmission]
    split
    · exact sameBudget_setIntentStatus i _
    · exact sameBudget_recordOrder i id

theorem sameBudget_lookup (i : IntentId) (now : Instant) (answer : LookupAnswer) :
    SameBudget s (lookupSubmission s i now answer) := by
  cases answer with
  | raised => exact sameBudget_updateIntent fun _ _ => rfl
  | notFound => exact sameBudget_updateIntent fun _ _ => rfl
  | found row =>
    simp only [lookupSubmission]
    split
    · refine SameBudget.trans ?_ (sameBudget_recordOrder i row.id)
      exact sameBudget_updateIntent fun _ _ => rfl
    · exact sameBudget_updateIntent fun _ _ => rfl

theorem budgets_applyBrokerUpdate {id : BrokerOrderId} {r : BrokerReport} :
    (applyBrokerUpdate s id r).experimentalBudgets = s.experimentalBudgets := by
  have hsell : ∀ (s : LifecycleState) symbol q d fp,
      (applySellFill s symbol q d fp).experimentalBudgets = s.experimentalBudgets := by
    intro s symbol q d fp
    unfold applySellFill
    split <;> rfl
  have hbuy : ∀ (s : LifecycleState) i symbol u q d,
      (applyBuyFill s i symbol u q d).experimentalBudgets = s.experimentalBudgets := by
    intro s i symbol u q d
    unfold applyBuyFill
    split
    · rfl
    · split
      · rfl
      · split <;> rfl
  have hfill : ∀ (s : LifecycleState) o u, (applyFill s o u).experimentalBudgets = s.experimentalBudgets := by
    intro s o u
    unfold applyFill
    dsimp only
    split
    · rfl
    · split
      · exact hsell ..
      · exact hbuy ..
  unfold applyBrokerUpdate
  split
  · rfl
  split
  · rfl
  unfold acceptUpdate
  split
  · rfl
  split
  · exact hfill ..
  · rfl

theorem sameBudget_update (id : BrokerOrderId) (r : BrokerReport) : SameBudget s (applyBrokerUpdate s id r) :=
  .of_intents intents_applyBrokerUpdate budgets_applyBrokerUpdate

theorem sameBudget_trigger (symbol : Symbol) (reason : ExitReason) : SameBudget s (markExitTriggered s symbol reason) := by
  unfold markExitTriggered
  split
  · exact .of_intents rfl rfl
  split
  · exact .of_intents rfl rfl
  · exact .of_intents rfl rfl

/-- Only an order changes what is reserved. -/
theorem sameBudget_next {e : Event} (he : ∀ r sub, e ≠ .order r sub) (hn : w.next cfg e = some w') :
    SameBudget w.state w'.state := by
  cases e with
  | session enabled killSwitch =>
    obtain rfl := Option.some.inj hn
    exact .of_intents rfl rfl
  | order r sub => exact absurd rfl (he r sub)
  | broker id snapshot =>
    simp only [World.next] at hn
    split at hn
    · obtain rfl := Option.some.inj hn
      exact .of_intents rfl rfl
    · cases hn
  | update id r =>
    simp only [World.next] at hn
    split at hn
    · obtain rfl := Option.some.inj hn
      exact sameBudget_update id r
    · cases hn
  | pollRead id seen r =>
    simp only [World.next] at hn
    split at hn
    · obtain rfl := Option.some.inj hn
      show SameBudget w.state (pollRead w.state id seen r)
      unfold pollRead
      split
      · exact sameBudget_update id r
      · exact .of_intents rfl rfl
    · cases hn
  | pollTimeout id =>
    obtain rfl := Option.some.inj hn
    exact .of_intents rfl rfl
  | promote =>
    obtain rfl := Option.some.inj hn
    exact sameBudget_promote
  | lookup i now answer =>
    simp only [World.next] at hn
    split at hn
    · obtain rfl := Option.some.inj hn
      exact sameBudget_lookup i now answer
    · cases hn
  | resolve i =>
    simp only [World.next] at hn
    split at hn
    · cases hn
    · obtain rfl := Option.some.inj hn
      show SameBudget w.state (operatorResolveUncertainSubmission w.state i)
      unfold operatorResolveUncertainSubmission
      split
      · split
        · exact sameBudget_setIntentStatus i _
        · exact .of_intents rfl rfl
      · exact .of_intents rfl rfl
  | verdict flags =>
    obtain rfl := Option.some.inj hn
    exact .of_intents rfl rfl
  | trigger symbol reason =>
    obtain rfl := Option.some.inj hn
    exact sameBudget_trigger symbol reason

/-! ## The records -/

/-- The record of an experiment is the count and the sum of its reservations; one without a record has none. -/
def BudgetsKept (s : LifecycleState) : Prop :=
  ∀ X, match s.experimentalBudgets X with
    | none => s.stakes X = []
    | some record => record.entriesUsed = (s.stakes X).length ∧ record.notionalUsed = (s.stakes X).sum

theorem BudgetsKept.of_same (h : BudgetsKept s) (ht : SameBudget s t) : BudgetsKept t := by
  intro X
  rw [ht.budgets, ht.stakes X]
  exact h X

/-- A record that passes the validation. -/
theorem BudgetsKept.validated (h : BudgetsKept s) {record : BudgetRecord} (hv : s.validatedBudgetRecord X = some record) :
    record.entriesUsed = (s.stakes X).length ∧ record.notionalUsed = (s.stakes X).sum := by
  have hX := h X
  unfold LifecycleState.validatedBudgetRecord at hv
  cases hb : s.experimentalBudgets X with
  | none =>
    simp only [hb] at hX hv
    split at hv
    · cases hv
    · obtain rfl := Option.some.inj hv
      rw [hX]
      exact ⟨rfl, rfl⟩
  | some found =>
    simp only [hb] at hX hv
    split at hv
    · cases hv
    · obtain rfl := Option.some.inj hv
      exact hX

/-! ## Admission -/

variable {c : EntryContext}

/-- An admission is that of an experimental entry that has passed the guards, or it leaves the records alone. -/
theorem admitted_cases (h : admitIntent c.config s r = .ok (i, t)) :
    (r.source = some .experimental ∧ i.side = .buy ∧ ∃ s' auth paper budget price,
      Passed c r s s' auth paper budget price ∧ t.experimentalBudgets = s'.experimentalBudgets) ∨
    (¬ (r.source = some .experimental ∧ i.side = .buy) ∧ t.experimentalBudgets = s.experimentalBudgets) := by
  obtain ⟨-, -, budgets, hg, rfl⟩ := admitIntent_ok h
  unfold guards at hg
  cases hside : i.side with
  | sell =>
    simp only [hside] at hg
    have hb : budgets = s.experimentalBudgets := by
      unfold sellGuards at hg
      split at hg
      · cases hg
      split at hg
      · cases hg
      · exact (Except.ok.inj hg).symm
    refine .inr ⟨?_, hb⟩
    rintro ⟨-, hbuy⟩
    cases hbuy
  | buy =>
    simp only [hside] at hg
    unfold buyGuards at hg
    iterate 5
      split at hg
      · cases hg
    split at hg
    · rename_i hsource
      split at hg
      · cases hg
      · rename_i found hfound
        obtain ⟨s', auth, paper, budget, price, hp, hb⟩ := experimentalGuards_ok hfound
        refine .inl ⟨hsource, rfl, s', auth, paper, budget, price, hp, ?_⟩
        exact (Except.ok.inj hg).symm.trans hb
    · rename_i hsource
      exact .inr ⟨fun hc => hsource hc.1, (Except.ok.inj hg).symm⟩

theorem stakes_admitted (h : admitIntent cfg s r = .ok (i, t)) (X : String) :
    t.stakes X = s.stakes X ++ ((r.intent i).stake X).toList := by
  obtain ⟨-, hnone, budgets, -, rfl⟩ := admitIntent_ok h
  have hrows := s.intents.rows_insertOrIgnore (r.intent i)
  rw [if_pos (show s.intents.get (r.intent i).id = none from hnone)] at hrows
  unfold LifecycleState.stakes
  dsimp only
  rw [hrows, List.filterMap_append]
  cases hst : (r.intent i).stake X with
  | none => simp [hst]
  | some amount => simp [hst]

/-- What the intent of a request reserves. -/
theorem stake_intent (r : OrderRequest) (i : IntentId) (X : String) :
    (r.intent i).stake X = if r.source = some .experimental ∧ i.side = .buy ∧ r.experimentalId = some X then
      some (r.referencePrice.getD 0 * i.quantity) else none := rfl

/-- What an entry has reserved for its experiment is what its limits were checked for. -/
theorem stakes_passed {s' : LifecycleState} {auth : ExperimentalAuthorization} {paper : ExperimentalPaperPermission}
    {budget : BudgetRecord} {price : ℚ} (h : admitIntent c.config s r = .ok (i, t))
    (hsource : r.source = some .experimental) (hside : i.side = .buy) (hp : Passed c r s s' auth paper budget price) :
    t.stakes auth.experimentId = s.stakes auth.experimentId ++ [price * r.quantity.getD 0] := by
  have hq : r.quantity = some i.quantity := (wellFormed_ok (admitIntent_ok h).1).2.2
  rw [stakes_admitted h, stake_intent, if_pos ⟨hsource, hside, hp.experimentalId⟩, hp.priced, hq]
  rfl

theorem BudgetsKept.admitted (h : BudgetsKept s) (ha : admitIntent c.config s r = .ok (i, t)) : BudgetsKept t := by
  intro X
  rcases admitted_cases ha with ⟨hsource, hside, s', auth, paper, budget, price, hp, hb⟩ | ⟨hno, hb⟩
  · obtain ⟨hcount, hsum⟩ := h.validated hp.record
    rw [hb, hp.reserved]
    dsimp only
    by_cases hX : X = auth.experimentId
    · rw [hX, Function.update_self, stakes_passed ha hsource hside hp, hcount, hsum]
      simp
    · rw [Function.update_of_ne hX, stakes_admitted ha, stake_intent, if_neg, Option.toList_none, List.append_nil]
      · exact h X
      · rintro ⟨-, -, hid⟩
        rw [hp.experimentalId] at hid
        exact hX (Option.some.inj hid).symm
  · rw [hb, stakes_admitted ha, stake_intent, if_neg fun hc => hno ⟨hc.1, hc.2.1⟩, Option.toList_none, List.append_nil]
    exact h X

/-! ## What is at the broker -/

/-- Every order at the broker has its intent on file, and no intent has two. -/
structure OnFile (w : World) : Prop where
  filed : ∀ b ∈ w.broker.rows, (w.state.intents.get b.intentId).isSome
  once : ∀ b ∈ w.broker.rows, ∀ b' ∈ w.broker.rows, b.intentId = b'.intentId → b = b'

theorem World.entries_le_stakes (h : OnFile w) (X : String) : (w.entries X).length ≤ (w.state.stakes X).length := by
  have hnodup : ((w.entries X).map (·.intentId)).Nodup := by
    refine List.Nodup.map_on (fun b hb b' hb' he => ?_) (w.broker.nodup.filter _)
    exact h.once b (List.mem_of_mem_filter hb) b' (List.mem_of_mem_filter hb') he
  have hsub : (w.entries X).map (·.intentId) ⊆ (w.state.intents.rows.filter fun q => (q.stake X).isSome).map (·.id) := by
    intro k hk
    obtain ⟨b, hb, rfl⟩ := List.mem_map.1 hk
    obtain ⟨-, hstake⟩ := List.mem_filter.1 hb
    cases hq : w.state.intents.get b.intentId with
    | none => simp [hq] at hstake
    | some q =>
      obtain ⟨hmem, hid⟩ := Table.get_eq_some.1 hq
      refine List.mem_map.2 ⟨q, List.mem_filter.2 ⟨hmem, ?_⟩, hid⟩
      simpa [hq] using hstake
  have hle := (List.subperm_of_subset hnodup hsub).length_le
  rw [List.length_map, List.length_map] at hle
  refine hle.trans (le_of_eq ?_)
  unfold LifecycleState.stakes
  rw [List.length_filterMap_eq_countP, List.countP_eq_length_filter]

/-- Orders at the broker keep their intents. -/
def KeepsOrders (w w' : World) : Prop :=
  ∀ b' ∈ w'.broker.rows, ∃ b ∈ w.broker.rows, b.id = b'.id ∧ b.intentId = b'.intentId

theorem KeepsOrders.of_eq (h : w'.broker = w.broker) : KeepsOrders w w' :=
  fun b hb => ⟨b, by rw [← h]; exact hb, rfl, rfl⟩

/-- Only an order brings a new order to the broker. -/
theorem keepsOrders_next {e : Event} (he : ∀ r sub, e ≠ .order r sub) (hn : w.next cfg e = some w') :
    KeepsOrders w w' := by
  cases e with
  | order r sub => exact absurd rfl (he r sub)
  | broker id snapshot =>
    simp only [World.next] at hn
    split at hn
    · obtain rfl := Option.some.inj hn
      intro b' hb'
      obtain ⟨b, hb, rfl⟩ := mem_updateRows.1 hb'
      refine ⟨b, hb, ?_⟩
      split
      · exact ⟨(BrokerOrder.id_move _ _).symm, (BrokerOrder.intentId_move _ _).symm⟩
      · exact ⟨rfl, rfl⟩
    · cases hn
  | session enabled killSwitch => exact .of_eq (by obtain rfl := Option.some.inj hn; rfl)
  | pollTimeout id => exact .of_eq (by obtain rfl := Option.some.inj hn; rfl)
  | promote => exact .of_eq (by obtain rfl := Option.some.inj hn; rfl)
  | verdict flags => exact .of_eq (by obtain rfl := Option.some.inj hn; rfl)
  | trigger symbol reason => exact .of_eq (by obtain rfl := Option.some.inj hn; rfl)
  | _ =>
    simp only [World.next] at hn
    split at hn
    · cases hn <;> exact .of_eq rfl
    · cases hn <;> exact .of_eq rfl

theorem OnFile.of_same (h : OnFile w) (hs : SameBudget w.state w'.state) (hb : KeepsOrders w w') : OnFile w' := by
  refine ⟨fun b' hb' => ?_, fun b' hb' d' hd' he => ?_⟩
  · obtain ⟨b, hbm, -, hi⟩ := hb b' hb'
    rw [← hi]
    exact hs.filed _ (h.filed b hbm)
  · obtain ⟨b, hbm, hid, hi⟩ := hb b' hb'
    obtain ⟨d, hdm, hid', hi'⟩ := hb d' hd'
    have hsame := h.once b hbm d hdm (by rw [hi, he, hi'])
    exact w'.broker.eq_of_key hb' hd' (by rw [← hid, hsame, hid'])

/-- A new order goes to the broker under the intent that was admitted for it. -/
theorem OnFile.receive (h : OnFile w) {sub : Submission} {broker : Table BrokerOrder.id}
    (ha : admitIntent cfg w.state r = .ok (i, s)) (hr : w.receive i sub = some broker) (ht : SameBudget s t) :
    OnFile { w with state := t, broker } := by
  obtain ⟨hself, hother⟩ := get_admitted ha
  have hnew : w.state.intents.get i = none := (admitIntent_ok ha).2.1
  have hkept : ∀ k, (w.state.intents.get k).isSome → (t.intents.get k).isSome := fun k hk =>
    ht.filed k (kept_admitted ha hk)
  have hfresh : ∀ b ∈ w.broker.rows, b.intentId ≠ i := by
    intro b hb he
    have := h.filed b hb
    rw [he, hnew] at this
    cases this
  unfold World.receive at hr
  split at hr
  · obtain rfl := Option.some.inj hr
    exact ⟨fun b hb => hkept _ (h.filed b hb), h.once⟩
  · rename_i id _
    obtain ⟨hrows, -⟩ := Table.insert?_eq_some hr
    have hmem : ∀ b, b ∈ broker.rows ↔ b ∈ w.broker.rows ∨ b = BrokerOrder.place id i := by
      intro b
      rw [hrows, List.mem_append, List.mem_singleton]
    constructor
    · intro b hb
      rcases (hmem b).1 hb with hb | rfl
      · exact hkept _ (h.filed b hb)
      · apply ht.filed
        rw [show (BrokerOrder.place id i).intentId = i from rfl, hself]
        rfl
    · intro b hb b' hb' he
      rcases (hmem b).1 hb with hb | rfl <;> rcases (hmem b').1 hb' with hb' | rfl
      · exact h.once b hb b' hb' he
      · exact absurd he (hfresh b hb)
      · exact absurd he.symm (hfresh b' hb')
      · rfl

/-! ## Sessions -/

section Sessions

variable {sub : Submission}

/-- Only the experimental guards refuse with a reason of theirs. -/
theorem refused_by_guards {reason : String} (h : admitIntent cfg s r = .error (.experimentalGuard reason)) :
    cfg.experimentalGuards s r = .error reason := by
  have hwf : wellFormed r ≠ .error (.experimentalGuard reason) := by
    unfold wellFormed
    split
    · rintro ⟨⟩
    · rintro ⟨⟩
    · split
      · split <;> rintro ⟨⟩
      · rintro ⟨⟩
  have hsell : ∀ symbol q, sellGuards s symbol q ≠ .error (.experimentalGuard reason) := by
    intro symbol q
    unfold sellGuards
    split
    · rintro ⟨⟩
    · split <;> rintro ⟨⟩
  unfold admitIntent at h
  split at h
  · rename_i e he
    rw [Except.error.inj h] at he
    exact absurd he hwf
  split at h
  · cases h
  split at h
  · cases h
  split at h
  · rename_i e hg
    rw [Except.error.inj h] at hg
    unfold guards at hg
    split at hg
    · unfold buyGuards at hg
      iterate 5
        split at hg
        · cases hg
      split at hg
      · split at hg
        · rename_i hfound
          rw [hfound]
          exact congrArg Except.error (Rejection.experimentalGuard.inj (Except.error.inj hg))
        · cases hg
      · cases hg
    · exact absurd hg (hsell _ _)
  · cases h

theorem afterRejection_eq {e : Rejection} (h : admitIntent c.config s r = .error e) : c.afterRejection r s e = s := by
  cases e with
  | experimentalGuard reason =>
    show (c.enforceExperimentalPaperGuards r s).2 = s
    rcases enforce_cases c r s with ⟨reason', he⟩ | ⟨s', he, -⟩
    · rw [he]
    · have hguards := refused_by_guards h
      simp only [config, he] at hguards
      cases hguards
  | _ => rfl

/-- An attempt is refused and changes nothing, or its intent is on file before it is sent. -/
theorem attempt_cases (h : S.next (.attempt c r sub) = some S') :
    S.running = true ∧
      ((∃ e, admitIntent c.config S.world.state r = .error e ∧ S' = S) ∨
        ∃ i s broker, admitIntent c.config S.world.state r = .ok (i, s) ∧ sub.truthful = true ∧
          S.world.receive i sub = some broker ∧
          S' = ⟨{ S.world with state := sub.answer.elim s (recordSubmission s i), broker },
            sub.answer.isSome || sub.received.isNone⟩) := by
  simp only [Session.next] at h
  split at h
  · cases h
  rename_i hrun
  refine ⟨by simpa using hrun, ?_⟩
  split at h
  · rename_i e he
    refine .inl ⟨e, he, ?_⟩
    rw [afterRejection_eq he] at h
    exact (Option.some.inj h).symm
  · rename_i admitted hok
    obtain ⟨i, s⟩ := admitted
    simp only [World.next, hok] at h
    split at h
    · rename_i htrue
      cases hr : S.world.receive i sub with
      | none => simp [hr] at h
      | some broker =>
        simp only [hr, Option.map_some] at h
        exact .inr ⟨i, s, broker, hok, htrue, hr, (Option.some.inj h).symm⟩
    · cases h

theorem sameBudget_answer (i : IntentId) (answer : Option SubmitAnswer) :
    SameBudget s (answer.elim s (recordSubmission s i)) := by
  cases answer with
  | none => exact .of_intents rfl rfl
  | some a => exact sameBudget_recordSubmission i a

/-- The other events are those of the world, apart from its orders. -/
theorem event_cases {e : Event} (h : S.next (.event e) = some S') :
    (∀ r sub, e ≠ .order r sub) ∧ ∃ w', S.world.next noEntries e = some w' ∧ S' = { S with world := w' } := by
  have he : ∀ r sub, e ≠ .order r sub := by
    rintro r sub rfl
    cases h
  have hn : (S.world.next noEntries e).map (fun w => { S with world := w }) = some S' := by
    rw [← h]
    cases e with
    | order r sub => exact absurd rfl (he r sub)
    | _ => rfl
  obtain ⟨w', hw, rfl⟩ := Option.map_eq_some_iff.1 hn
  exact ⟨he, w', hw, rfl⟩

/-- The records are right, and what is at the broker is on file. -/
theorem Session.kept_next {e : SessionEvent} (hk : BudgetsKept S.world.state) (hf : OnFile S.world) (h : S.next e = some S') :
    BudgetsKept S'.world.state ∧ OnFile S'.world := by
  cases e with
  | attempt c r sub =>
    obtain ⟨-, ⟨e, -, rfl⟩ | ⟨i, s, broker, ha, -, hr, rfl⟩⟩ := attempt_cases h
    · exact ⟨hk, hf⟩
    · have hs := sameBudget_answer (s := s) i sub.answer
      exact ⟨(hk.admitted ha).of_same hs, hf.receive ha hr hs⟩
  | event e =>
    obtain ⟨he, w', hw, rfl⟩ := event_cases h
    have hs := sameBudget_next he hw
    exact ⟨hk.of_same hs, hf.of_same hs (keepsOrders_next he hw)⟩
  | eodClosed =>
    simp only [Session.next] at h
    split at h
    · obtain rfl := Option.some.inj h
      have hs : SameBudget S.world.state S.world.state.closePositions := .of_intents rfl rfl
      exact ⟨hk.of_same hs, hf.of_same hs (.of_eq rfl)⟩
    · cases h
  | crash =>
    obtain rfl := Option.some.inj h
    exact ⟨hk, hf⟩
  | restart =>
    obtain rfl := Option.some.inj h
    have hs : SameBudget S.world.state (promoteOrphanOrderIntents S.world.state) := sameBudget_promote
    exact ⟨hk.of_same hs, hf.of_same hs (.of_eq rfl)⟩

theorem Session.Reach.kept {ok : Session → SessionEvent → Prop} (h : Session.Reach ok S) :
    BudgetsKept S.world.state ∧ OnFile S.world := by
  induction h with
  | start => exact ⟨fun _ => rfl, fun b hb => (List.not_mem_nil hb).elim, fun b hb => (List.not_mem_nil hb).elim⟩
  | step _ _ hn ih => exact Session.kept_next ih.1 ih.2 hn

end Sessions

end TalonX.Piv
