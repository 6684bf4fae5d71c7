import Mathlib.Algebra.BigOperators.Group.List.Basic
import Mathlib.Algebra.Order.BigOperators.Group.List
import TalonX.Significance.Engine

/-!
# The accounting of points

- `Accounted`: a component has the points of its reasons, within its cap and floor; `finalize_accounted` for the hits
  of a rule, then one lemma for each rule;
- `scored_accounted`: all components, in the order of the engine;
- `sum_of_reasons`, `reasons_of_component`: the reasons of all rules and of one among them.
-/

set_option autoImplicit false

namespace TalonX.Significance

open Clock
open TalonX.Core (PyFloat)
open TalonX.Insider (InsiderActivity)

/-! ## Components -/

/-- What a rule gives to `finalize`: no negative points of a substantive category, and a code that the models accept. -/
structure Hit.Valid (substantive : Bool) (x : Hit) : Prop where
  nonneg : substantive = true → 0 ≤ x.points
  clean : cleanCode x.code = true

/-- The fixed codes of the rules. -/
def ruleCodes : List String :=
  ["EVENT_TYPE_BASE", "HIGH_BASE_RAW_ITEM", "AMENDS_PRIOR_FILING", "MULTI_ITEM_8K", "SECTION_CHANGE_DECILE",
    "SECTION_CHANGE_TERCILE", "WHOLE_DOCUMENT_CHANGE", "NEW_MATERIAL_PASSAGES", "RISK_TERM_COUNT_ROSE",
    "XBRL_MAGNITUDE", "LARGE_OPEN_MARKET_TRANSACTION", "INSIDER_CLUSTER", "EVENT_CLUSTER", "RECENT_ARRIVAL",
    "WATCHLIST_PINNED", "ON_WATCHLIST", "EVENT_DATA_INCOMPLETE", "FILING_COMPARISON_INCOMPLETE",
    "INSIDER_DATA_INCOMPLETE", "SOURCE_NOT_FRESH", "QUALITY_PENALTY_FLOORED", "SCORE_CAPPED", "SCORE_FLOORED"]

theorem ruleCodes_clean : ∀ code ∈ ruleCodes, cleanCode code = true := by decide +kernel

theorem hit_valid {substantive : Bool} {code description : String} {points : ℤ} {evidenceRef : Option String}
    (hp : 0 ≤ points) (hc : code ∈ ruleCodes) : Hit.Valid substantive ⟨code, description, points, evidenceRef⟩ :=
  ⟨fun _ => hp, ruleCodes_clean code hc⟩

/-- What holds of the result of a rule. -/
structure Accounted (k : ComponentCode) (sub : Bool) (s : Scored) : Prop where
  code : s.component.code = k
  substantive : s.component.substantive = sub
  points : s.component.points = (s.reasons.map (·.points)).sum
  owner : ∀ r ∈ s.reasons, r.component = k
  clean : ∀ r ∈ s.reasons, cleanCode r.code = true
  cap : ∀ cap, componentCap k = some cap → s.component.points ≤ cap
  floor : ∀ floor, componentFloor k = some floor → floor ≤ s.component.points
  nonneg : sub = true → 0 ≤ s.component.points

theorem componentCap_nonneg {code : ComponentCode} {cap : ℤ} (h : componentCap code = some cap) : 0 ≤ cap := by
  cases code <;> simp [componentCap] at h <;> omega

theorem componentFloor_nonpos {code : ComponentCode} {floor : ℤ} (h : componentFloor code = some floor) :
    floor ≤ 0 := by
  unfold componentFloor at h
  split at h
  · obtain rfl := Option.some.inj h
    decide
  · cases h

/-- Only the quality penalty has a floor, and it has no cap. -/
theorem componentCap_of_floor {code : ComponentCode} {floor : ℤ} (h : componentFloor code = some floor) :
    componentCap code = none := by
  unfold componentFloor at h
  split at h
  · next hc =>
    rw [hc]
    rfl
  · cases h

theorem emptyComponent_accounted (code : ComponentCode) (substantive : Bool) (detail : String) :
    Accounted code substantive (emptyComponent code substantive detail) where
  code := rfl
  substantive := rfl
  points := rfl
  owner := fun _ h => absurd h List.not_mem_nil
  clean := fun _ h => absurd h List.not_mem_nil
  cap := fun _ h => componentCap_nonneg h
  floor := fun _ h => componentFloor_nonpos h
  nonneg := fun _ => le_rfl

/-- The limits and the reason for the difference. -/
theorem limited_spec (code : ComponentCode) (raw : ℤ) :
    (limited code raw).1 = raw + sumPoints (limited code raw).2.toList ∧
      (∀ cap, componentCap code = some cap → (limited code raw).1 ≤ cap) ∧
      (∀ floor, componentFloor code = some floor → floor ≤ (limited code raw).1) ∧
      (0 ≤ raw → 0 ≤ (limited code raw).1) := by
  unfold limited
  cases hc : (componentCap code).filter (· < raw) with
  | some cap =>
    obtain ⟨hcap, hlt⟩ := Option.filter_eq_some_iff.1 hc
    refine ⟨by simp [sumPoints], fun cap' h => ?_, fun floor h => ?_, fun _ => componentCap_nonneg hcap⟩
    · rw [hcap] at h
      obtain rfl := Option.some.inj h
      exact le_rfl
    · rw [componentCap_of_floor h] at hcap
      cases hcap
  | none =>
    have hle : ∀ cap, componentCap code = some cap → raw ≤ cap := fun cap h => by
      have := Option.filter_eq_none_iff.1 hc cap h
      simpa using this
    cases hf : (componentFloor code).filter (raw < ·) with
    | some floor =>
      obtain ⟨hfloor, hlt⟩ := Option.filter_eq_some_iff.1 hf
      have hlt : raw < floor := of_decide_eq_true hlt
      refine ⟨by simp [sumPoints], fun cap h => ?_, fun floor' h => ?_, fun h => ?_⟩
      · rw [componentCap_of_floor hfloor] at h
        cases h
      · rw [hfloor] at h
        exact (Option.some.inj h).ge
      · show 0 ≤ floor
        omega
    | none =>
      refine ⟨by simp [sumPoints], hle, fun floor h => ?_, id⟩
      have := Option.filter_eq_none_iff.1 hf floor h
      simpa using this

theorem cappedCode_clean (code : ComponentCode) :
    cleanCode (code.value.toUpper ++ "_CONTRIBUTION_CAPPED") = true := by
  cases code <;> decide +kernel

/-- The code of the reason for the difference. -/
theorem limited_clean {code : ComponentCode} {raw : ℤ} {x : Hit} (h : (limited code raw).2 = some x) :
    cleanCode x.code = true := by
  unfold limited at h
  split at h
  · obtain rfl := Option.some.inj h
    exact cappedCode_clean code
  · obtain rfl := Option.some.inj h
    exact ruleCodes_clean _ (by simp [ruleCodes])
  · cases h

theorem sumPoints_append (hits hits' : List Hit) : sumPoints (hits ++ hits') = sumPoints hits + sumPoints hits' := by
  simp [sumPoints]

theorem finalize_accounted (code : ComponentCode) (substantive : Bool) {hits : List Hit} (detail : String)
    (h : ∀ x ∈ hits, Hit.Valid substantive x) :
    Accounted code substantive (finalize code substantive hits detail) where
  code := rfl
  substantive := rfl
  points := by
    have hsum : ((finalize code substantive hits detail).reasons.map (·.points)).sum =
        sumPoints (hits ++ (limited code (sumPoints hits)).2.toList) := by
      unfold finalize
      rw [List.map_map]
      rfl
    rw [hsum, sumPoints_append]
    exact (limited_spec code (sumPoints hits)).1
  owner := fun r hr => by
    obtain ⟨x, -, rfl⟩ := List.mem_map.1 hr
    rfl
  clean := fun r hr => by
    obtain ⟨x, hx, rfl⟩ := List.mem_map.1 hr
    rcases List.mem_append.1 hx with hx | hx
    · exact (h x hx).clean
    · exact limited_clean (Option.mem_toList.1 hx)
  cap := (limited_spec code (sumPoints hits)).2.1
  floor := (limited_spec code (sumPoints hits)).2.2.1
  nonneg := fun hs => (limited_spec code (sumPoints hits)).2.2.2
    (List.sum_nonneg fun p hp => by
      obtain ⟨x, hx, rfl⟩ := List.mem_map.1 hp
      exact (h x hx).nonneg hs)

/-- A rule with one hit. -/
theorem finalize_one_accounted (code : ComponentCode) (substantive : Bool) {x : Hit} (detail : String)
    (h : Hit.Valid substantive x) : Accounted code substantive (finalize code substantive [x] detail) :=
  finalize_accounted code substantive detail fun _ hy => List.mem_singleton.1 hy ▸ h

/-- A rule with several optional hits: without any it is empty. -/
theorem hits_accounted (code : ComponentCode) (substantive : Bool) {hits : List Hit} (none detail : String)
    (h : ∀ x ∈ hits, Hit.Valid substantive x) :
    Accounted code substantive
      (if hits.isEmpty then emptyComponent code substantive none else finalize code substantive hits detail) := by
  split
  · exact emptyComponent_accounted _ _ _
  · exact finalize_accounted _ _ _ h

/-! ## One lemma for each rule -/

variable (lib : Lib)

theorem eventTypeBasePoints_nonneg (t : EventType) : 0 ≤ eventTypeBasePoints t := by
  cases t <;> decide

theorem highItemHit_valid {event : TextEvent} {base : ℤ} {x : Hit} (h : x ∈ highItemHit event base) :
    x.Valid true := by
  unfold highItemHit at h
  split at h
  · split at h
    · next hlt =>
      obtain rfl := Option.some.inj h
      exact hit_valid (by omega) (by simp [ruleCodes])
    · cases h
  · cases h

theorem eventTypeBase_accounted (event : TextEvent) (openMarket : Bool) :
    Accounted .eventTypeBase true (eventTypeBase event openMarket) := by
  unfold eventTypeBase
  split
  · exact emptyComponent_accounted _ _ _
  · refine hits_accounted _ _ _ _ fun x hx => ?_
    rcases List.mem_append.1 hx with hx | hx
    · rcases List.mem_append.1 hx with hx | hx
      · split at hx
        · obtain rfl := List.mem_singleton.1 hx
          exact hit_valid (eventTypeBasePoints_nonneg _) (by simp [ruleCodes])
        · cases hx
      · exact highItemHit_valid (Option.mem_toList.1 hx)
    · split at hx
      · obtain rfl := List.mem_singleton.1 hx
        exact hit_valid zero_le_one (by simp [ruleCodes])
      · cases hx

theorem materialItems_accounted (event : TextEvent) : Accounted .materialItems true (materialItems event) := by
  unfold materialItems
  dsimp only
  split
  · exact emptyComponent_accounted _ _ _
  · exact finalize_one_accounted _ _ _ (hit_valid zero_le_one (by simp [ruleCodes]))

theorem sectionHit_valid {w : WhatChanged} {comparisonId : Option String} {key : SectionType} {x : Hit}
    (h : sectionHit lib w comparisonId key = some x) : x.Valid true := by
  unfold sectionHit at h
  split at h
  · cases h
  · split at h
    · obtain rfl := Option.some.inj h
      exact hit_valid zero_le_two (by simp [ruleCodes])
    · split at h
      · obtain rfl := Option.some.inj h
        exact hit_valid zero_le_one (by simp [ruleCodes])
      · cases h

theorem wholeDocumentHit_valid {w : WhatChanged} {comparisonId : Option String} {x : Hit}
    (h : x ∈ wholeDocumentHit lib w comparisonId) : x.Valid true := by
  unfold wholeDocumentHit at h
  split at h
  · cases h
  · split at h
    · obtain rfl := Option.some.inj h
      exact hit_valid zero_le_one (by simp [ruleCodes])
    · cases h

theorem newPassagesHit_valid {w : WhatChanged} {comparisonId : Option String} {x : Hit}
    (h : x ∈ newPassagesHit w comparisonId) : x.Valid true := by
  obtain ⟨cnt, -, rfl⟩ := Option.map_eq_some_iff.1 h
  exact hit_valid zero_le_one (by simp [ruleCodes])

theorem filingChange_accounted (w : Option WhatChanged) (comparisonId : Option String) :
    Accounted .filingChange true (filingChange lib w comparisonId) := by
  unfold filingChange
  split
  · exact emptyComponent_accounted _ _ _
  · refine hits_accounted _ _ _ _ fun x hx => ?_
    rcases List.mem_append.1 hx with hx | hx
    · rcases List.mem_append.1 hx with hx | hx
      · obtain ⟨key, -, hkey⟩ := List.mem_filterMap.1 hx
        exact sectionHit_valid lib hkey
      · exact wholeDocumentHit_valid lib (Option.mem_toList.1 hx)
    · exact newPassagesHit_valid (Option.mem_toList.1 hx)

theorem riskLanguage_accounted (w : Option WhatChanged) (comparisonId : Option String) :
    Accounted .riskLanguage true (riskLanguage w comparisonId) := by
  unfold riskLanguage
  split
  · exact emptyComponent_accounted _ _ _
  · dsimp only
    split
    · exact emptyComponent_accounted _ _ _
    · exact finalize_one_accounted _ _ _ (hit_valid zero_le_one (by simp [ruleCodes]))

theorem xbrlMagnitude_accounted (w : Option WhatChanged) (comparisonId : Option String) :
    Accounted .xbrlMagnitude true (xbrlMagnitude lib w comparisonId) := by
  unfold xbrlMagnitude
  dsimp only
  split
  · exact emptyComponent_accounted _ _ _
  · split
    · exact finalize_one_accounted _ _ _ (hit_valid zero_le_two (by simp [ruleCodes]))
    · split
      · exact finalize_one_accounted _ _ _ (hit_valid zero_le_one (by simp [ruleCodes]))
      · exact emptyComponent_accounted _ _ _

theorem insiderActivity_accounted (activity : Option InsiderActivity) :
    Accounted .insiderActivity true (insiderActivity lib activity) := by
  unfold insiderActivity
  split
  · exact emptyComponent_accounted _ _ _
  · refine hits_accounted _ _ _ _ fun x hx => ?_
    rcases List.mem_append.1 hx with hx | hx
    · split at hx
      · obtain rfl := List.mem_singleton.1 hx
        exact hit_valid zero_le_one (by simp [ruleCodes])
      · cases hx
    · obtain ⟨c, -, rfl⟩ := Option.map_eq_some_iff.1 (Option.mem_toList.1 hx)
      exact hit_valid zero_le_two (by simp [ruleCodes])

theorem rarityCode_clean (code : RarityCode) : cleanCode ("EVENT_" ++ code.value ++ "_FOR_FILER") = true := by
  cases code <;> decide +kernel

theorem rarityComponent_accounted (r : Option RarityResult) : Accounted .rarity true (rarityComponent r) := by
  unfold rarityComponent
  split
  · exact emptyComponent_accounted _ _ _
  · split
    · exact emptyComponent_accounted _ _ _
    · next x h =>
      exact finalize_one_accounted _ _ _ ⟨fun _ => (not_le.1 h).le, rarityCode_clean x.code⟩

theorem simultaneousEvents_accounted (count : ℤ) (days : ℕ) :
    Accounted .simultaneousEvents true (simultaneousEvents count days) := by
  unfold simultaneousEvents
  split
  · exact emptyComponent_accounted _ _ _
  · exact finalize_one_accounted _ _ _ (hit_valid zero_le_one (by simp [ruleCodes]))

theorem recency_accounted (event : TextEvent) (now : Utc) : Accounted .recency false (recency event now) := by
  unfold recency
  split
  · exact emptyComponent_accounted _ _ _
  · dsimp only
    split
    · exact finalize_one_accounted _ _ _ (hit_valid zero_le_one (by simp [ruleCodes]))
    · exact emptyComponent_accounted _ _ _

theorem watchlistPriority_accounted (onWatchlist pinned : Bool) :
    Accounted .watchlistPriority false (watchlistPriority onWatchlist pinned) := by
  unfold watchlistPriority
  split
  · exact finalize_one_accounted _ _ _ (hit_valid zero_le_two (by simp [ruleCodes]))
  · split
    · exact finalize_one_accounted _ _ _ (hit_valid zero_le_one (by simp [ruleCodes]))
    · exact emptyComponent_accounted _ _ _

theorem flagsHit_code {code subject : String} {flags : List String} {evidenceRef : Option String} {x : Hit}
    (h : flagsHit code subject flags evidenceRef = some x) : x.code = code := by
  unfold flagsHit at h
  split at h
  · cases h
  · obtain rfl := Option.some.inj h
    rfl

theorem quality_code_clean {code : String}
    (h : code ∈
      ["EVENT_DATA_INCOMPLETE", "FILING_COMPARISON_INCOMPLETE", "INSIDER_DATA_INCOMPLETE", "SOURCE_NOT_FRESH"]) :
    cleanCode code = true := by
  refine ruleCodes_clean code ?_
  simp only [List.mem_cons, List.not_mem_nil, or_false] at h
  rcases h with rfl | rfl | rfl | rfl <;> simp [ruleCodes]

theorem qualityPenalty_accounted (event : TextEvent) (comparison : Option FilingComparison)
    (activity : Option InsiderActivity) (sourceStatus : Option String) :
    Accounted .qualityPenalty false (qualityPenalty event comparison activity sourceStatus) := by
  unfold qualityPenalty
  refine hits_accounted _ _ _ _ fun x hx => ⟨nofun, ?_⟩
  rcases List.mem_append.1 hx with hx | hx
  · rcases List.mem_append.1 hx with hx | hx
    · rcases List.mem_append.1 hx with hx | hx
      · obtain ⟨f, -, rfl⟩ := List.mem_map.1 hx
        exact quality_code_clean (by simp)
      · obtain ⟨c, -, hc⟩ := Option.bind_eq_some_iff.1 (Option.mem_toList.1 hx)
        rw [flagsHit_code hc]
        exact quality_code_clean (by simp)
    · obtain ⟨a, -, ha⟩ := Option.bind_eq_some_iff.1 (Option.mem_toList.1 hx)
      rw [flagsHit_code ha]
      exact quality_code_clean (by simp)
  · obtain ⟨t, -, rfl⟩ := Option.map_eq_some_iff.1 (Option.mem_toList.1 hx)
    exact quality_code_clean (by simp)

/-! ## All components -/

/-- The components in the order of the engine, and which of them are substantive. -/
def scoreFamilies : List (ComponentCode × Bool) :=
  [(.eventTypeBase, true), (.materialItems, true), (.filingChange, true), (.riskLanguage, true), (.xbrlMagnitude, true),
    (.insiderActivity, true), (.rarity, true), (.simultaneousEvents, true), (.recency, false),
    (.watchlistPriority, false), (.qualityPenalty, false)]

theorem scored_accounted (i : Inputs) :
    List.Forall₂ (fun f s => Accounted f.1 f.2 s) scoreFamilies (scoredComponents lib i) :=
  .cons (eventTypeBase_accounted _ _) <| .cons (materialItems_accounted _) <|
    .cons (filingChange_accounted lib _ _) <| .cons (riskLanguage_accounted _ _) <|
    .cons (xbrlMagnitude_accounted lib _ _) <| .cons (insiderActivity_accounted lib _) <|
    .cons (rarityComponent_accounted _) <| .cons (simultaneousEvents_accounted _ _) <|
    .cons (recency_accounted _ _) <| .cons (watchlistPriority_accounted _ _) <|
    .cons (qualityPenalty_accounted _ _ _ _) .nil

/-- The components, one by one, are those of the table. -/
theorem components_families (i : Inputs) :
    (scoredComponents lib i).map (fun s => (s.component.code, s.component.substantive)) = scoreFamilies := by
  have h := scored_accounted lib i
  generalize scoredComponents lib i = scored at h
  generalize scoreFamilies = families at h
  induction h with
  | nil => rfl
  | @cons f s _ _ hs _ ih => rw [List.map_cons, ih, hs.code, hs.substantive]

theorem exists_accounted {i : Inputs} {s : Scored} (h : s ∈ scoredComponents lib i) :
    Accounted s.component.code s.component.substantive s := by
  have hall := scored_accounted lib i
  generalize scoredComponents lib i = scored at hall h
  generalize scoreFamilies = families at hall
  induction hall with
  | nil => cases h
  | @cons f x _ _ hx _ ih =>
    rcases List.mem_cons.1 h with rfl | h
    · rw [hx.code, hx.substantive]
      exact hx
    · exact ih h

/-! ## Sums of reasons -/

/-- The reasons of all rules add up to the points of their components. -/
theorem sum_of_reasons {scored : List Scored}
    (h : ∀ s ∈ scored, s.component.points = (s.reasons.map (·.points)).sum) :
    ((scored.flatMap (·.reasons)).map (·.points)).sum = rawScore (scored.map (·.component)) := by
  induction scored with
  | nil => rfl
  | cons s scored ih =>
    have hs := h s List.mem_cons_self
    have ih := ih fun x hx => h x (List.mem_cons_of_mem _ hx)
    simp only [rawScore, List.flatMap_cons, List.map_append, List.sum_append, List.map_cons, List.sum_cons] at ih ⊢
    rw [ih, hs]

/-- The total and the reason of its difference. -/
theorem clampScore_eq (raw : ℤ) : clampScore raw = raw + ((totalReason raw).toList.map (·.points)).sum := by
  unfold totalReason
  dsimp only
  split
  · next h =>
    simp only [Option.toList_none, List.map_nil, List.sum_nil, add_zero]
    exact sub_eq_zero.1 h
  · simp

theorem clampScore_mem (raw : ℤ) : scoreFloor ≤ clampScore raw ∧ clampScore raw ≤ scoreTotalCap :=
  ⟨le_max_left _ _, max_le (by decide) (min_le_left _ _)⟩

theorem clampScore_mono {raw raw' : ℤ} (h : raw ≤ raw') : clampScore raw ≤ clampScore raw' :=
  max_le_max le_rfl (min_le_min le_rfl h)

/-- Where the components have different codes and own their reasons, the reasons with the code of one are its own. -/
theorem reasons_of_component {scored : List Scored}
    (hcodes : (scored.map (·.component.code)).Nodup)
    (howner : ∀ s ∈ scored, ∀ r ∈ s.reasons, r.component = s.component.code) {s : Scored} (hs : s ∈ scored) :
    (scored.flatMap (·.reasons)).filter (·.component = s.component.code) = s.reasons := by
  induction scored with
  | nil => cases hs
  | cons x scored ih =>
    rw [List.map_cons, List.nodup_cons] at hcodes
    have howner' : ∀ s ∈ scored, ∀ r ∈ s.reasons, r.component = s.component.code :=
      fun y hy => howner y (List.mem_cons_of_mem _ hy)
    rw [List.flatMap_cons, List.filter_append]
    rcases List.mem_cons.1 hs with rfl | hs
    · -- the other components have other codes
      have hself : s.reasons.filter (·.component = s.component.code) = s.reasons :=
        List.filter_eq_self.2 fun r hr => decide_eq_true (howner s List.mem_cons_self r hr)
      have hrest : (scored.flatMap (·.reasons)).filter (·.component = s.component.code) = [] := by
        refine List.filter_eq_nil_iff.2 fun r hr hc => ?_
        obtain ⟨y, hy, hry⟩ := List.mem_flatMap.1 hr
        refine hcodes.1 (List.mem_map.2 ⟨y, hy, ?_⟩)
        rw [← howner' y hy r hry]
        exact of_decide_eq_true hc
      rw [hself, hrest, List.append_nil]
    · have hne : x.component.code ≠ s.component.code := fun he =>
        hcodes.1 (he ▸ List.mem_map.2 ⟨s, hs, rfl⟩)
      have hnil : x.reasons.filter (·.component = s.component.code) = [] :=
        List.filter_eq_nil_iff.2 fun r hr hc =>
          hne ((howner x List.mem_cons_self r hr).symm.trans (of_decide_eq_true hc))
      rw [hnil, List.nil_append]
      exact ih hcodes.2 howner' hs

theorem totalReason_clean {raw : ℤ} {r : SignificanceReason} (h : totalReason raw = some r) :
    cleanCode r.code = true := by
  unfold totalReason at h
  dsimp only at h
  split at h
  · cases h
  · obtain rfl := Option.some.inj h
    dsimp only
    split <;> exact ruleCodes_clean _ (by simp [ruleCodes])

/-- The reason of a capped or floored total belongs to no component. -/
theorem totalReason_filter {raw : ℤ} {code : ComponentCode} (h : code ≠ .scoreTotal) :
    (totalReason raw).toList.filter (·.component = code) = [] := by
  refine List.filter_eq_nil_iff.2 fun r hr hc => h ?_
  have hr := Option.mem_toList.1 hr
  unfold totalReason at hr
  dsimp only at hr
  split at hr
  · cases hr
  · obtain rfl := Option.some.inj hr
    exact (of_decide_eq_true hc).symm

end TalonX.Significance
