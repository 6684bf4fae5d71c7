import TalonX.Significance.Engine

/-!
# Stored significances

When a stored significance is kept.

- `SignificanceStore`: the rows of `event_significance`;
- `needsRecompute`, `evaluateEvent`: `recompute.py`, and `pipeline.py` after the inputs are gathered;
- `storeOf`: the rows after several calls; `storeOf_row`: each of them is the evaluation of one call.
-/

set_option autoImplicit false

namespace TalonX.Significance

open Clock

/-! ## The store -/

abbrev SignificanceStore := List InformationSignificance

namespace SignificanceStore

/-- `has`. -/
def has (store : SignificanceStore) (significanceId : String) : Bool := store.any (·.significanceId = significanceId)

/-- `get_for_event`. -/
def getForEvent (store : SignificanceStore) (eventId rulesetVersion : String) : Option InformationSignificance :=
  store.find? fun r => r.eventId = eventId && r.rulesetVersion = rulesetVersion

/-- `upsert`: the row replaces the one of its key. -/
def upsert (store : SignificanceStore) (sig : InformationSignificance) : SignificanceStore × Bool :=
  (store.filter (·.significanceId ≠ sig.significanceId) ++ [{ sig with symbol := sig.symbol.toUpper }],
    !store.has sig.significanceId)

end SignificanceStore

/-! ## Recomputation -/

structure RecomputeDecision where
  needed : Bool
  reason : String

variable (lib : Lib) (quoted : String → String)

/-- `needs_recompute`. `quoted` is `repr` of a text. -/
def needsRecompute (existing : Option InformationSignificance) (newFingerprint rulesetVersion : String) :
    RecomputeDecision :=
  match existing with
  | none => ⟨true, "no stored significance for this event + ruleset"⟩
  | some e =>
    if e.rulesetVersion ≠ rulesetVersion then
      ⟨true, "ruleset changed: stored " ++ quoted e.rulesetVersion ++ " -> current " ++ quoted rulesetVersion⟩
    else if e.inputFingerprint ≠ newFingerprint then ⟨true, "a substantive input changed (fingerprint mismatch)"⟩
    else ⟨false, "inputs and ruleset unchanged"⟩

structure SignificanceEvalResult where
  significance : InformationSignificance
  recomputeReason : String
  persisted : Bool
  wasNew : Bool

/-- The gathered inputs of one call, and `force`. -/
structure EvalCall where
  inputs : Inputs
  force : Bool

/-- `evaluate_event` on the gathered inputs, and the rows after it. -/
def evaluateEvent (store : Option SignificanceStore) (call : EvalCall) :
    SignificanceEvalResult × Option SignificanceStore :=
  let sig := evaluateSignificance lib call.inputs
  match store with
  | none => (⟨sig, "not persisted", false, false⟩, none)
  | some rows =>
    let existing := rows.getForEvent call.inputs.event.eventId call.inputs.rulesetVersion
    let decision := needsRecompute quoted existing sig.inputFingerprint call.inputs.rulesetVersion
    match existing, decision.needed || call.force with
    | some kept, false => (⟨kept, decision.reason, false, false⟩, some rows)
    | _, _ =>
      let (rows', wasNew) := rows.upsert sig
      (⟨sig, decision.reason, true, wasNew⟩, some rows')

/-- The rows of an empty store after several calls. -/
def storeOf (calls : List EvalCall) : SignificanceStore :=
  calls.foldl (fun rows call => (evaluateEvent lib quoted (some rows) call).2.getD rows) []

/-- The row that the store makes of an evaluation. -/
def rowOf (i : Inputs) : InformationSignificance :=
  { evaluateSignificance lib i with symbol := i.event.symbol.toUpper.toUpper }

/-- What a call with a store does: it keeps a row with the same event, ruleset and fingerprint, or writes a new one. -/
theorem evaluateEvent_cases (rows : SignificanceStore) (call : EvalCall) :
    (∃ kept reason, rows.getForEvent call.inputs.event.eventId call.inputs.rulesetVersion = some kept ∧
        kept.inputFingerprint = inputFingerprint lib call.inputs ∧
        evaluateEvent lib quoted (some rows) call = (⟨kept, reason, false, false⟩, some rows)) ∨
      ∃ reason wasNew, evaluateEvent lib quoted (some rows) call =
        (⟨evaluateSignificance lib call.inputs, reason, true, wasNew⟩,
          some (rows.upsert (evaluateSignificance lib call.inputs)).1) := by
  unfold evaluateEvent
  dsimp only
  split
  · next kept hkept hneeded =>
    refine .inl ⟨kept, _, hkept, ?_, rfl⟩
    -- the decision says that nothing changed
    rw [Bool.or_eq_false_iff, hkept] at hneeded
    unfold needsRecompute at hneeded
    dsimp only at hneeded
    split at hneeded
    · cases hneeded.1
    · split at hneeded
      · cases hneeded.1
      · next hsame => exact not_not.1 hsame
  · exact .inr ⟨_, _, rfl⟩

theorem getForEvent_spec {rows : SignificanceStore} {eventId rulesetVersion : String} {kept : InformationSignificance}
    (h : rows.getForEvent eventId rulesetVersion = some kept) :
    kept ∈ rows ∧ kept.eventId = eventId ∧ kept.rulesetVersion = rulesetVersion := by
  refine ⟨List.mem_of_find?_eq_some h, ?_⟩
  have hp := List.find?_some h
  rw [Bool.and_eq_true] at hp
  exact ⟨of_decide_eq_true hp.1, of_decide_eq_true hp.2⟩

theorem mem_upsert {rows : SignificanceStore} {i : Inputs} {r : InformationSignificance}
    (h : r ∈ (rows.upsert (evaluateSignificance lib i)).1) : r ∈ rows ∨ r = rowOf lib i := by
  rcases List.mem_append.1 h with h | h
  · exact .inl (List.mem_of_mem_filter h)
  · exact .inr (List.mem_singleton.1 h)

/-- The rows are evaluations of the calls. -/
theorem storeOf_row {calls : List EvalCall} {r : InformationSignificance} (h : r ∈ storeOf lib quoted calls) :
    ∃ call ∈ calls, r = rowOf lib call.inputs := by
  induction calls using List.reverseRecOn generalizing r with
  | nil => cases h
  | append_singleton calls call ih =>
    have hold : ∀ r ∈ storeOf lib quoted calls, ∃ c ∈ calls ++ [call], r = rowOf lib c.inputs := by
      intro r hr
      obtain ⟨c, hc, rfl⟩ := ih hr
      exact ⟨c, List.mem_append_left _ hc, rfl⟩
    rw [storeOf, List.foldl_concat] at h
    change r ∈ ((evaluateEvent lib quoted (some (storeOf lib quoted calls)) call).2.getD _) at h
    rcases evaluateEvent_cases lib quoted (storeOf lib quoted calls) call with
      ⟨kept, reason, -, -, he⟩ | ⟨reason, wasNew, he⟩
    · rw [he] at h
      exact hold r h
    · rw [he] at h
      rcases mem_upsert lib h with h | rfl
      · exact hold r h
      · exact ⟨call, List.mem_append_right _ List.mem_cons_self, rfl⟩

theorem storeOf_one (call : EvalCall) : storeOf lib quoted [call] = [rowOf lib call.inputs] := rfl

/-- The evaluation of one call is kept by a later one with the same event, ruleset and fingerprint. -/
theorem evaluateEvent_keeps {x y : EvalCall} (hevent : x.inputs.event.eventId = y.inputs.event.eventId)
    (hruleset : x.inputs.rulesetVersion = y.inputs.rulesetVersion) (hforce : y.force = false)
    (hfingerprint : inputFingerprint lib x.inputs = inputFingerprint lib y.inputs) :
    evaluateEvent lib quoted (some (storeOf lib quoted [x])) y =
      (⟨rowOf lib x.inputs, "inputs and ruleset unchanged", false, false⟩, some (storeOf lib quoted [x])) := by
  have hget : (storeOf lib quoted [x]).getForEvent y.inputs.event.eventId y.inputs.rulesetVersion =
      some (rowOf lib x.inputs) := by
    rw [storeOf_one]
    refine List.find?_cons_of_pos ?_
    rw [Bool.and_eq_true]
    exact ⟨decide_eq_true hevent, decide_eq_true hruleset⟩
  have hdecision : needsRecompute quoted (some (rowOf lib x.inputs)) (inputFingerprint lib y.inputs)
      y.inputs.rulesetVersion = ⟨false, "inputs and ruleset unchanged"⟩ := by
    have hrow : (rowOf lib x.inputs).rulesetVersion = y.inputs.rulesetVersion := hruleset
    have hrow' : (rowOf lib x.inputs).inputFingerprint = inputFingerprint lib y.inputs := hfingerprint
    unfold needsRecompute
    dsimp only
    rw [if_neg (not_not.2 hrow), if_neg (not_not.2 hrow')]
  have hsig : (evaluateSignificance lib y.inputs).inputFingerprint = inputFingerprint lib y.inputs := rfl
  unfold evaluateEvent
  dsimp only
  rw [hget, hsig, hdecision, hforce]
  rfl

end TalonX.Significance
