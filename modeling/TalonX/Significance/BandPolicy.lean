import TalonX.Significance.Accounting

/-!
# The policy of the bands

What the four holds do to the band of a score, step by step, and the result on `evaluate_significance`.

- `holdCritical_mono` to `holdBand_mono`: each hold keeps the order of two runs;
- `holdBand_critical`, `holdBand_high`, `holdBand_low`, `holdBand_trigger`: what a band needs;
- `Raised`: the components after one of them got more points;
- `significance_accounting`: points, score and band.
-/

set_option autoImplicit false

namespace TalonX.Significance

/-! ## The holds of the band -/

theorem SignificanceBand.le_def {a b : SignificanceBand} : a ≤ b ↔ a.order ≤ b.order := Iff.rfl

theorem SignificanceBand.le_refl (a : SignificanceBand) : a ≤ a := Nat.le_refl a.order

theorem SignificanceBand.le_trans {a b c : SignificanceBand} (h : a ≤ b) (h' : b ≤ c) : a ≤ c := Nat.le_trans h h'

theorem bandForScore_mono {score score' : ℤ} (h : score ≤ score') : bandForScore score ≤ bandForScore score' := by
  unfold bandForScore
  split_ifs <;> first | decide | omega

theorem minBand_le_left (a b : SignificanceBand) : minBand a b ≤ a := by cases a <;> cases b <;> decide

theorem minBand_le_right (a b : SignificanceBand) : minBand a b ≤ b := by cases a <;> cases b <;> decide

theorem minBand_mono {a a' : SignificanceBand} (b : SignificanceBand) (h : a ≤ a') : minBand a b ≤ minBand a' b := by
  revert h
  cases a <;> cases a' <;> cases b <;> decide

theorem holdCritical_le (points : ℤ) (families : ℕ) (h : Held) : (holdCritical points families h).1 ≤ h.1 := by
  unfold holdCritical
  split
  · next hc => exact hc.1 ▸ (by decide : SignificanceBand.high ≤ .critical)
  · exact SignificanceBand.le_refl _

theorem holdHigh_le (points : ℤ) (h : Held) : (holdHigh points h).1 ≤ h.1 := by
  unfold holdHigh
  split
  · next hc => exact hc.1 ▸ (by decide : SignificanceBand.medium ≤ .high)
  · exact SignificanceBand.le_refl _

@[simp] theorem holdTo_fst (cap : SignificanceBand) (text : String) (h : Held) :
    (holdTo cap text h).1 = minBand h.1 cap := by
  unfold holdTo
  split
  · next hc => exact hc.symm
  · rfl

theorem holdNonSubstantive_fst (points : ℤ) (h : Held) :
    (holdNonSubstantive points h).1 = if points ≤ 0 then minBand h.1 nonSubstantiveOnlyBand else h.1 := by
  unfold holdNonSubstantive
  split
  · exact holdTo_fst _ _ _
  · rfl

theorem holdQuality_fst (triggers : List String) (h : Held) :
    (holdQuality triggers h).1 = if triggers.isEmpty then h.1 else minBand h.1 .medium := by
  unfold holdQuality
  split
  · rfl
  · exact holdTo_fst _ _ _

/-- A band that stays critical has the required points and families. -/
theorem holdCritical_critical {points : ℤ} {families : ℕ} {h : Held}
    (hc : (holdCritical points families h).1 = .critical) :
    criticalMinSubstantivePoints ≤ points ∧ criticalMinSubstantiveFamilies ≤ families := by
  unfold holdCritical at hc
  split at hc
  · cases hc
  · next hn => exact not_not.1 fun h' => hn ⟨hc, h'⟩

theorem holdNonSubstantive_le (points : ℤ) (h : Held) : (holdNonSubstantive points h).1 ≤ h.1 := by
  rw [holdNonSubstantive_fst]
  split
  · exact minBand_le_left _ _
  · exact SignificanceBand.le_refl _

theorem holdQuality_le (triggers : List String) (h : Held) : (holdQuality triggers h).1 ≤ h.1 := by
  rw [holdQuality_fst]
  split
  · exact SignificanceBand.le_refl _
  · exact minBand_le_left _ _

/-! ### One step of the order each -/

theorem holdCritical_mono {points points' : ℤ} {families families' : ℕ} {h h' : Held} (hb : h.1 ≤ h'.1)
    (hp : points ≤ points') (hf : families ≤ families') :
    (holdCritical points families h).1 ≤ (holdCritical points' families' h').1 := by
  by_cases hc : h'.1 = .critical ∧
      ¬ (criticalMinSubstantivePoints ≤ points' ∧ criticalMinSubstantiveFamilies ≤ families')
  · -- the lower side falls short as well
    have hfst : (holdCritical points' families' h').1 = .high := by rw [holdCritical, if_pos hc]
    rw [hfst]
    by_cases hlow : h.1 = .critical
    · have hshort : ¬ (criticalMinSubstantivePoints ≤ points ∧ criticalMinSubstantiveFamilies ≤ families) :=
        fun ⟨h₁, h₂⟩ => hc.2 ⟨h₁.trans hp, h₂.trans hf⟩
      rw [holdCritical, if_pos ⟨hlow, hshort⟩]
      exact SignificanceBand.le_refl _
    · refine SignificanceBand.le_trans (holdCritical_le _ _ _) ?_
      revert hlow
      cases h.1 <;> decide
  · have hfst : (holdCritical points' families' h').1 = h'.1 := by rw [holdCritical, if_neg hc]
    rw [hfst]
    exact SignificanceBand.le_trans (holdCritical_le _ _ _) hb

theorem holdHigh_mono {points points' : ℤ} {h h' : Held} (hb : h.1 ≤ h'.1) (hp : points ≤ points')
    (hcrit : h.1 = .critical → highMinSubstantivePoints ≤ points) :
    (holdHigh points h).1 ≤ (holdHigh points' h').1 := by
  by_cases hc : h'.1 = .high ∧ points' < highMinSubstantivePoints
  · have hfst : (holdHigh points' h').1 = .medium := by rw [holdHigh, if_pos hc]
    have hlt : points < highMinSubstantivePoints := hp.trans_lt hc.2
    rw [hfst]
    by_cases hlow : h.1 = .high
    · rw [holdHigh, if_pos ⟨hlow, hlt⟩]
      exact SignificanceBand.le_refl _
    · have hne : h.1 ≠ .critical := fun he => absurd (hcrit he) hlt.not_ge
      refine SignificanceBand.le_trans (holdHigh_le _ _) ?_
      revert hlow hne
      cases h.1 <;> decide
  · have hfst : (holdHigh points' h').1 = h'.1 := by rw [holdHigh, if_neg hc]
    rw [hfst]
    exact SignificanceBand.le_trans (holdHigh_le _ _) hb

theorem holdNonSubstantive_mono {points points' : ℤ} {h h' : Held} (hb : h.1 ≤ h'.1) (hp : points ≤ points') :
    (holdNonSubstantive points h).1 ≤ (holdNonSubstantive points' h').1 := by
  by_cases hc : points' ≤ 0
  · rw [holdNonSubstantive_fst, holdNonSubstantive_fst, if_pos hc, if_pos (hp.trans hc)]
    exact minBand_mono _ hb
  · rw [holdNonSubstantive_fst points', if_neg hc]
    exact SignificanceBand.le_trans (holdNonSubstantive_le _ _) hb

theorem holdQuality_mono (triggers : List String) {h h' : Held} (hb : h.1 ≤ h'.1) :
    (holdQuality triggers h).1 ≤ (holdQuality triggers h').1 := by
  rw [holdQuality_fst, holdQuality_fst]
  split
  · exact hb
  · exact minBand_mono _ hb

/-- All holds together: more points and families never lower the band. -/
theorem holdBand_mono {score score' points points' : ℤ} {families families' : ℕ} (triggers : List String)
    (hs : score ≤ score') (hp : points ≤ points') (hf : families ≤ families') :
    (holdBand score points families triggers).1 ≤ (holdBand score' points' families' triggers).1 := by
  have hband : ((bandForScore score, []) : Held).1 ≤ ((bandForScore score', []) : Held).1 := bandForScore_mono hs
  have hcritical := holdCritical_mono hband hp hf
  have hhigh := holdHigh_mono hcritical hp fun hc => le_trans (by decide) (holdCritical_critical hc).1
  exact holdQuality_mono triggers (holdNonSubstantive_mono hhigh hp)

/-! ### The policy of the bands -/

theorem holdBand_le_high (score points : ℤ) (families : ℕ) (triggers : List String) :
    (holdBand score points families triggers).1 ≤
      (holdHigh points (holdCritical points families (bandForScore score, []))).1 :=
  SignificanceBand.le_trans (holdQuality_le _ _) (holdNonSubstantive_le _ _)

theorem holdBand_critical {score points : ℤ} {families : ℕ} {triggers : List String}
    (h : (holdBand score points families triggers).1 = .critical) :
    criticalMinSubstantivePoints ≤ points ∧ criticalMinSubstantiveFamilies ≤ families := by
  refine holdCritical_critical (h := (bandForScore score, [])) ?_
  have hle := SignificanceBand.le_trans (holdBand_le_high score points families triggers) (holdHigh_le _ _)
  rw [h] at hle
  revert hle
  cases (holdCritical points families (bandForScore score, [])).1 <;> decide

theorem holdBand_high {score points : ℤ} {families : ℕ} {triggers : List String}
    (h : .high ≤ (holdBand score points families triggers).1) : highMinSubstantivePoints ≤ points := by
  have hle := SignificanceBand.le_trans h (holdBand_le_high score points families triggers)
  by_contra hlt
  rw [not_le] at hlt
  by_cases hc : (holdCritical points families (bandForScore score, [])).1 = .high
  · rw [holdHigh, if_pos ⟨hc, hlt⟩] at hle
    exact absurd (show SignificanceBand.high ≤ .medium from hle) (by decide)
  · -- not HIGH and at least HIGH: CRITICAL, which needs even more points
    have hle := SignificanceBand.le_trans hle (holdHigh_le _ _)
    have hcrit : (holdCritical points families (bandForScore score, [])).1 = .critical := by
      revert hc hle
      cases (holdCritical points families (bandForScore score, [])).1 <;> decide
    have h5 := (holdCritical_critical hcrit).1
    unfold criticalMinSubstantivePoints at h5
    unfold highMinSubstantivePoints at hlt
    omega

theorem holdBand_low (score : ℤ) {points : ℤ} (families : ℕ) (triggers : List String) (h : points ≤ 0) :
    (holdBand score points families triggers).1 = .low := by
  have hle := holdQuality_le triggers
    (holdNonSubstantive points (holdHigh points (holdCritical points families (bandForScore score, []))))
  rw [holdNonSubstantive_fst, if_pos h] at hle
  have hlow := SignificanceBand.le_trans hle (minBand_le_right _ _)
  unfold holdBand
  revert hlow
  cases (holdQuality triggers (holdNonSubstantive points
    (holdHigh points (holdCritical points families (bandForScore score, []))))).1 <;> decide

theorem holdBand_trigger (score points : ℤ) (families : ℕ) {triggers : List String} (h : triggers ≠ []) :
    (holdBand score points families triggers).1 ≤ .medium := by
  rw [holdBand, holdQuality_fst, if_neg (by simpa using h)]
  exact minBand_le_right _ _

/-! ## Raised components -/

/-- One component of category `k` may get more points, one of another category stays. -/
structure RaisedAt (k : ComponentCode) (c c' : SignificanceComponent) : Prop where
  code : c'.code = c.code
  substantive : c'.substantive = c.substantive
  raised : c.code = k → c.points ≤ c'.points
  unchanged : c.code ≠ k → c'.points = c.points

/-- The points of one component are raised, the others stay. -/
def Raised (k : ComponentCode) (components components' : List SignificanceComponent) : Prop :=
  List.Forall₂ (RaisedAt k) components components'

theorem RaisedAt.points_le {k : ComponentCode} {c c' : SignificanceComponent} (h : RaisedAt k c c') :
    c.points ≤ c'.points := by
  by_cases hk : c.code = k
  · exact h.raised hk
  · exact (h.unchanged hk).ge

theorem Raised.rawScore_le {k : ComponentCode} {cs cs' : List SignificanceComponent} (h : Raised k cs cs') :
    rawScore cs ≤ rawScore cs' := by
  induction h with
  | nil => exact le_rfl
  | cons hc _ ih =>
    have hle := hc.points_le
    simp only [rawScore, List.map_cons, List.sum_cons] at ih ⊢
    omega

/-- What is substantive stays so, with at least its points. -/
theorem Raised.substantive_le {k : ComponentCode} {cs cs' : List SignificanceComponent} (h : Raised k cs cs') :
    substantivePoints cs ≤ substantivePoints cs' ∧ substantiveFamilies cs ≤ substantiveFamilies cs' := by
  induction h with
  | nil => exact ⟨le_rfl, le_rfl⟩
  | @cons c c' cs cs' hc _ ih =>
    have hle := hc.points_le
    obtain ⟨ihp, ihf⟩ := ih
    simp only [substantivePoints, substantiveFamilies, substantive] at ihp ihf ⊢
    rw [List.filter_cons, List.filter_cons, hc.substantive]
    by_cases hsub : c.substantive = true
    · by_cases hpos : 0 < c.points
      · have hpos' : 0 < c'.points := hpos.trans_le hle
        simp only [hsub, hpos, hpos', decide_true, Bool.and_self, if_true, List.map_cons, List.sum_cons,
          List.length_cons]
        omega
      · by_cases hpos' : 0 < c'.points
        · -- a family more
          simp only [hsub, hpos, hpos', decide_true, decide_false, Bool.and_self, Bool.and_false, if_true,
            Bool.false_eq_true, if_false, List.map_cons, List.sum_cons, List.length_cons]
          omega
        · simp only [hsub, hpos, hpos', decide_false, Bool.and_false, Bool.false_eq_true, if_false]
          exact ⟨ihp, ihf⟩
    · simp only [hsub, Bool.false_and, Bool.false_eq_true, if_false]
      exact ⟨ihp, ihf⟩

theorem Raised.band_le {k : ComponentCode} {cs cs' : List SignificanceComponent} (triggers : List String)
    (h : Raised k cs cs') : (heldBand cs triggers).1 ≤ (heldBand cs' triggers).1 :=
  holdBand_mono triggers (clampScore_mono h.rawScore_le) h.substantive_le.1 h.substantive_le.2

/-! ## The result -/

variable (lib : Lib)

theorem score_eq_sum (i : Inputs) :
    (evaluateSignificance lib i).score = ((evaluateSignificance lib i).reasons.map (·.points)).sum := by
  have hsum := sum_of_reasons fun s hs => (exists_accounted lib (i := i) hs).points
  show clampScore (rawScore _) = _
  rw [evaluateSignificance, List.map_append, List.sum_append, hsum]
  exact clampScore_eq _

theorem scoreFamilies_nodup : (scoreFamilies.map (·.1)).Nodup := by decide

theorem scored_codes (i : Inputs) : (scoredComponents lib i).map (·.component.code) = scoreFamilies.map (·.1) := by
  rw [← components_families lib i, List.map_map]
  rfl

/-- The reasons with the code of a component are those of its rule. -/
theorem component_points (i : Inputs) {c : SignificanceComponent} (hc : c ∈ (evaluateSignificance lib i).components) :
    c.points = (((evaluateSignificance lib i).reasons.filter (·.component = c.code)).map (·.points)).sum := by
  obtain ⟨s, hs, rfl⟩ := List.mem_map.1 hc
  have hnodup : ((scoredComponents lib i).map (·.component.code)).Nodup := by
    rw [scored_codes]
    exact scoreFamilies_nodup
  have hne : s.component.code ≠ .scoreTotal := by
    have hmem : s.component.code ∈ (scoredComponents lib i).map (·.component.code) := List.mem_map.2 ⟨s, hs, rfl⟩
    rw [scored_codes] at hmem
    intro he
    rw [he] at hmem
    exact absurd hmem (by decide)
  have hown := reasons_of_component hnodup (fun s hs => (exists_accounted lib hs).owner) hs
  rw [evaluateSignificance, List.filter_append, hown, totalReason_filter hne, List.append_nil]
  exact (exists_accounted lib hs).points

/-- Points, score and band of every evaluation. The last two parts are about a raised component: for any points it might
have, and for inputs that give it more. -/
theorem significance_accounting (i : Inputs) :
    let r := evaluateSignificance lib i
    (scoreFloor ≤ r.score ∧ r.score ≤ scoreTotalCap ∧ r.score = (r.reasons.map (·.points)).sum) ∧
      r.components.map (fun c => (c.code, c.substantive)) = scoreFamilies ∧
      (∀ c ∈ r.components,
        c.points = ((r.reasons.filter (·.component = c.code)).map (·.points)).sum ∧
          (∀ cap, componentCap c.code = some cap → c.points ≤ cap) ∧
          ∀ floor, componentFloor c.code = some floor → floor ≤ c.points) ∧
      (∀ x ∈ r.reasons, cleanCode x.code = true) ∧
      (r.band = .critical →
        criticalMinSubstantivePoints ≤ r.substantivePoints ∧ criticalMinSubstantiveFamilies ≤ r.substantiveFamilies) ∧
      (.high ≤ r.band → highMinSubstantivePoints ≤ r.substantivePoints) ∧
      (r.substantivePoints ≤ 0 → r.band = .low) ∧
      ("missing_acceptance_timestamp" ∈ i.event.dataQualityFlags ∨ i.sourceStatus = some "DOWN" → r.band ≤ .medium) ∧
      (∀ k components', Raised k r.components components' →
        r.band ≤ (heldBand components' (qualityTriggers i)).1) ∧
      ∀ k i', Raised k r.components (evaluateSignificance lib i').components →
        qualityTriggers i' = qualityTriggers i → r.band ≤ (evaluateSignificance lib i').band := by
  refine ⟨⟨(clampScore_mem _).1, (clampScore_mem _).2, score_eq_sum lib i⟩, ?_, fun c hc => ?_, fun x hx => ?_,
    holdBand_critical, holdBand_high, holdBand_low _ _ _, fun ht => ?_, fun k components' h => h.band_le _,
    fun k i' h ht => ?_⟩
  · rw [← components_families lib i]
    exact List.map_map
  · refine ⟨component_points lib i hc, ?_⟩
    obtain ⟨s, hs, rfl⟩ := List.mem_map.1 hc
    exact ⟨(exists_accounted lib hs).cap, (exists_accounted lib hs).floor⟩
  · rcases List.mem_append.1 hx with hx | hx
    · obtain ⟨s, hs, hx⟩ := List.mem_flatMap.1 hx
      exact (exists_accounted lib hs).clean x hx
    · exact totalReason_clean (Option.mem_toList.1 hx)
  · refine holdBand_trigger _ _ _ ?_
    unfold qualityTriggers
    rcases ht with ht | ht
    · rw [if_pos (List.contains_iff_mem.2 ht)]
      simp
    · rw [if_pos ht]
      simp
  · have hband := h.band_le (qualityTriggers i)
    show (heldBand _ (qualityTriggers i)).1 ≤ (heldBand _ (qualityTriggers i')).1
    rw [ht]
    exact hband

/-- A restructuring 8-K on the watchlist, without an acceptance time. -/
def restructuringInputs (rarityResult : Option RarityResult) : Inputs where
  event :=
    { eventId := "EVT:1", symbol := "ACME", eventType := .restructuring, formType := "8-K", filingItems := ["2.05"]
      accession := "0000000001-25-000001", acceptedAtUtc := none, isAmendment := false, sourceHash := none
      dataQualityFlags := ["missing_acceptance_timestamp"] }
  comparison := none
  insiderActivity := none
  rarityResult := rarityResult
  onWatchlist := true
  pinned := false
  simultaneousTypeCount := 1
  sourceStatus := none
  now := ⟨1000000, by decide⟩
  rulesetVersion := rulesetVersion

/-- A library that prints nothing and joins the parts of a fingerprint. -/
def plainLib : Lib := ⟨fun _ => "", fun _ => "", fun _ _ => "", join "|"⟩

/-- A rare event has two points more, and the trigger holds both at MEDIUM. -/
theorem significance_accounting_restructuring :
    (evaluateSignificance plainLib (restructuringInputs none)).band ≤
        (evaluateSignificance plainLib (restructuringInputs (some ⟨.rare, 2, "rare for this filer"⟩))).band ∧
      (evaluateSignificance plainLib (restructuringInputs none)).band ≤ .medium := by
  obtain ⟨-, -, -, -, -, -, -, htrigger, -, hraise⟩ := significance_accounting plainLib (restructuringInputs none)
  refine ⟨hraise .rarity _ ?_ rfl, htrigger (.inl List.mem_cons_self)⟩
  have hsame : ∀ c : SignificanceComponent, RaisedAt .rarity c c := fun _ => ⟨rfl, rfl, fun _ => le_rfl, fun _ => rfl⟩
  exact .cons (hsame _) <| .cons (hsame _) <| .cons (hsame _) <| .cons (hsame _) <| .cons (hsame _) <|
    .cons (hsame _) <| .cons ⟨rfl, rfl, fun _ => by decide, fun h => absurd rfl h⟩ <| .cons (hsame _) <|
    .cons (hsame _) <| .cons (hsame _) <| .cons (hsame _) .nil

end TalonX.Significance
