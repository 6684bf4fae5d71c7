import TalonX.Piv.Matched

/-!
# A reconcile is a run of events

When the broker tells the truth, each stage of `reconcile` is a run of the world's events: the refreshes are updates, and
the lookups adopt orders that the broker has. So the results about runs hold across a reconcile too.
-/

set_option autoImplicit false

namespace TalonX.Piv

open Transact V2 World

variable {cfg : Config} {w w' : World} {s t t' : LifecycleState} {now : Instant} {reads : Reads}

/-! ## Runs that leave the broker alone -/

theorem World.run_append {es fs : List Event} : w.run cfg (es ++ fs) = (w.run cfg es).bind (·.run cfg fs) := by
  induction es generalizing w with
  | nil => rfl
  | cons e es ih =>
    rw [List.cons_append, run, run]
    cases w.next cfg e with
    | none => rfl
    | some w₁ => exact ih

/-- A run of events leads to the state, and nothing happens at the broker meanwhile. -/
def Follows (cfg : Config) (w : World) (t : LifecycleState) : Prop :=
  ∃ es w', w.run cfg es = some w' ∧ w'.state = t ∧ w'.broker = w.broker

theorem Follows.refl : Follows cfg w w.state := ⟨[], w, rfl, rfl, rfl⟩

theorem Follows.of_next {e : Event} (h : w.next cfg e = some w') (hb : w'.broker = w.broker) : Follows cfg w w'.state :=
  ⟨[e], w', by rw [run, h]; rfl, rfl, hb⟩

theorem Follows.trans (h : Follows cfg w t) (ht : ∀ w', w'.state = t → w'.broker = w.broker → Follows cfg w' t') :
    Follows cfg w t' := by
  obtain ⟨es, w₁, hrun, hstate, hbroker⟩ := h
  obtain ⟨fs, w₂, hrun', hstate', hbroker'⟩ := ht w₁ hstate hbroker
  refine ⟨es ++ fs, w₂, ?_, hstate', hbroker'.trans hbroker⟩
  rw [run_append, hrun]
  exact hrun'

/-! ## The stages -/

/-- What the broker says in answer to a read is a state that the order has or had. -/
def TellsRow (w : World) (id : BrokerOrderId) (row : Option OrderRow) : Prop :=
  ∀ u, row.bind extractOrderUpdateFields = some u → w.tells id u.report = true

/-- The reads of the pass are answered truthfully. -/
structure Honest (w : World) (reads : Reads) : Prop where
  unconfirmed : ∀ id, TellsRow w id (reads.unconfirmed id)
  lookup : ∀ i, w.tellsLookup i (reads.lookup i) = true
  adopted : ∀ i row, Adopts reads.lookup i row → TellsRow w row.id (some row)
  refresh : ∀ id, TellsRow w id (reads.refresh id)

theorem TellsRow.of_broker {id : BrokerOrderId} {row : Option OrderRow} (h : TellsRow w id row)
    (hb : w'.broker = w.broker) : TellsRow w' id row := fun u hu => by
  have htold := h u hu
  unfold tells at htold ⊢
  rw [hb]
  exact htold

theorem Honest.of_broker (h : Honest w reads) (hb : w'.broker = w.broker) : Honest w' reads where
  unconfirmed id := (h.unconfirmed id).of_broker hb
  lookup i := by
    have hi := h.lookup i
    unfold tellsLookup at hi ⊢
    rw [hb]
    exact hi
  adopted i row had := (h.adopted i row had).of_broker hb
  refresh id := (h.refresh id).of_broker hb

theorem follows_refreshOrder {id : BrokerOrderId} {row : Option OrderRow} (h : TellsRow w id row) :
    Follows cfg w (refreshOrder w.state id row) := by
  unfold refreshOrder
  cases hrow : row.bind extractOrderUpdateFields with
  | none => exact Follows.refl
  | some u =>
    have hnext : w.next cfg (.update id u.report) =
        some { w with state := applyBrokerUpdate w.state id u.report, reported := w.hear id u.report } :=
      if_pos (h u hrow)
    exact Follows.of_next hnext rfl

theorem follows_refreshAll {read : BrokerOrderId → Option OrderRow} (h : ∀ id, TellsRow w id (read id))
    (ids : List BrokerOrderId) : Follows cfg w (refreshAll read w.state ids) := by
  induction ids generalizing w with
  | nil => exact Follows.refl
  | cons id ids ih =>
    apply (follows_refreshOrder (h id)).trans
    intro w' hstate hbroker
    rw [refreshAll, List.foldl_cons, ← hstate]
    exact ih fun k => (h k).of_broker hbroker

/-- The lookup of an intent that is still uncertain, and the refresh of the order that it adopts. -/
theorem follows_lookupIfDue (h : Honest w reads) {i : IntentId}
    (hi : (w.state.intents.get i).map (·.status) = some .submitFailedUncertain) :
    Follows cfg w (lookupIfDue reads.lookup now w.state i) := by
  have hlookup : Follows cfg w (lookupSubmission w.state i now (reads.lookup i)) := by
    obtain ⟨q, hq, hstatus⟩ := Option.map_eq_some_iff.1 hi
    have hnext : w.next cfg (.lookup i now (reads.lookup i)) =
        some { w with state := lookupSubmission w.state i now (reads.lookup i) } :=
      if_pos (by rw [hq, Option.any_some, hstatus, h.lookup i]; rfl)
    exact Follows.of_next hnext rfl
  unfold lookupIfDue
  split
  · unfold resolveUncertainSubmission
    split
    · rename_i row hrow
      split
      · rename_i hmatch
        apply hlookup.trans
        intro w' hstate hbroker
        rw [← hstate]
        exact follows_refreshOrder ((h.adopted i row ⟨hrow, hmatch⟩).of_broker hbroker)
      · exact hlookup
    · exact hlookup
  · exact Follows.refl

theorem follows_lookups (h : Honest w reads) {ids : List IntentId} (hn : ids.Nodup)
    (hids : ∀ i ∈ ids, (w.state.intents.get i).map (·.status) = some .submitFailedUncertain) :
    Follows cfg w (ids.foldl (lookupIfDue reads.lookup now) w.state) := by
  induction ids generalizing w with
  | nil => exact Follows.refl
  | cons i ids ih =>
    obtain ⟨hnew, hn'⟩ := List.nodup_cons.1 hn
    apply (follows_lookupIfDue h (hids i List.mem_cons_self)).trans
    intro w' hstate hbroker
    rw [List.foldl_cons, ← hstate]
    apply ih (h.of_broker hbroker) hn'
    -- a lookup leaves the other uncertain intents uncertain
    intro j hj
    have hne : j ≠ i := fun hij => hnew (by rw [← hij]; exact hj)
    rw [hstate, lookupIfDue_of_ne hne]
    exact hids j (List.mem_cons_of_mem _ hj)

theorem nodup_uncertainIds (s : LifecycleState) : s.uncertainIds.Nodup :=
  (s.intents.unique.sublist (List.filter_sublist.map _))

theorem status_of_mem_uncertainIds {i : IntentId} (h : i ∈ s.uncertainIds) :
    (s.intents.get i).map (·.status) = some .submitFailedUncertain := by
  obtain ⟨q, hq, rfl⟩ := List.mem_map.1 h
  obtain ⟨hmem, hstatus⟩ := List.mem_filter.1 hq
  rw [Table.get_eq_some.2 ⟨hmem, rfl⟩]
  exact congrArg some (of_decide_eq_true hstatus)

/-- An honest reconcile is a run of events that leaves the broker alone. -/
theorem reconcile_run (h : Honest w reads) : Follows cfg w (reconcile w.state now reads).1 := by
  apply (follows_refreshAll h.unconfirmed w.state.unconfirmedIds).trans
  intro w₁ h₁ hb₁
  have hpromote : Follows cfg w₁ (promoteOrphanOrderIntents w₁.state) :=
    @Follows.of_next cfg w₁ { w₁ with state := promoteOrphanOrderIntents w₁.state } .promote rfl rfl
  apply hpromote.trans
  intro w₂ h₂ hb₂
  have hlookups : Follows cfg w₂ (resolveUncertainSubmissions w₂.state now reads.lookup) :=
    follows_lookups (h.of_broker (hb₂.trans hb₁)) (nodup_uncertainIds _) fun _ => status_of_mem_uncertainIds
  apply hlookups.trans
  intro w₃ h₃ hb₃
  have hb : w₃.broker = w.broker := hb₃.trans (hb₂.trans hb₁)
  apply (follows_refreshAll (fun id => (h.refresh id).of_broker hb) w₃.state.outstandingIds).trans
  intro w₄ h₄ _
  have hbefore : w₃.state = beforeRefresh w.state now reads := by rw [h₃, h₂, h₁]; rfl
  have hverdict := @Follows.of_next cfg w₄
    { w₄ with state := { w₄.state with reconciliationFlags := (reconcile w.state now reads).2.flags } }
    (.verdict (reconcile w.state now reads).2.flags) rfl rfl
  have hend : { w₄.state with reconciliationFlags := (reconcile w.state now reads).2.flags } =
      (reconcile w.state now reads).1 := by
    rw [h₄, hbefore]
    rfl
  rw [← hend]
  exact hverdict

end TalonX.Piv
