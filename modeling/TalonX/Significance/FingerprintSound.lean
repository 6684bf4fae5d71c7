import TalonX.Core.PyFloatOrder
import TalonX.Significance.Accounting
import TalonX.Significance.Fields
import TalonX.Significance.Recompute

/-!
# Inputs with the same fingerprint

What the fingerprint rounds, counts together or leaves out decides some of the points. Where the two inputs agree on
that, the scores, the bands and the substantive points are the same.

- `SameSide`, `SameBlind`: agreement on what the fingerprint does not tell;
- `*_points`: the points of a rule are a function of what the fingerprint tells and of these;
- `fingerprint_sound`, and two comparisons with one fingerprint.
-/

set_option autoImplicit false

namespace TalonX.Significance

open Clock
open TalonX.Core (PyFloat)
open TalonX.Insider (InsiderActivity)

/-! ## Agreement -/

/-- Two sizes on the same side of every threshold. -/
structure SameSide (thresholds : List PyFloat) (v w : Option PyFloat) : Prop where
  isSome : v.isSome = w.isSome
  nan : v = some .nan ↔ w = some .nan
  reach : ∀ t ∈ thresholds, (v.any fun q => t.le q) = w.any fun q => t.le q

/-- The rounded ratios are on the same sides of the thresholds, and as many passages count. -/
structure SameTiers (c c' : FilingComparison) : Prop where
  passages : (newMaterialPassages c).isSome = (newMaterialPassages c').isSome
  whole : SameSide [decileChangeThreshold .wholeDocument] (c.wholeDocumentChange.map (·.diffRatio))
    (c'.wholeDocumentChange.map (·.diffRatio))
  sections : ∀ p ∈ c.sectionChanges.zip c'.sectionChanges, p.1.status = .found →
    SameSide [decileChangeThreshold (.section p.1.sectionType), tercileChangeThreshold (.section p.1.sectionType)]
      p.1.diffRatio p.2.diffRatio
  xbrl : ∀ p ∈ c.xbrlChanges.zip c'.xbrlChanges,
    SameSide [xbrlDecileAbsRelativeDelta, xbrlTercileAbsRelativeDelta] (p.1.relativeDelta.map PyFloat.abs)
      (p.2.relativeDelta.map PyFloat.abs)

/-- The points of a rarity result, none when they are negative. -/
def rarityPoints (r : Option RarityResult) : ℤ := r.elim 0 fun r => max 0 r.points

structure SameBlind (x y : Inputs) : Prop where
  comparisons : ∀ c ∈ x.comparison, ∀ c' ∈ y.comparison, SameTiers c c'
  largest : ∀ a ∈ x.insiderActivity, ∀ a' ∈ y.insiderActivity,
    ∀ p ∈ a.openMarketAggregates.zip a'.openMarketAggregates, SameSide [insiderLargeTransactionUsd]
      (p.1.largestSingleTransactionValue.map PyFloat.abs) (p.2.largestSingleTransactionValue.map PyFloat.abs)
  openMarket : hasOpenMarketInsider x.insiderActivity = hasOpenMarketInsider y.insiderActivity
  rarity : rarityPoints x.rarityResult = rarityPoints y.rarityResult

/-! ## Points of the hits -/

theorem limited_zero (code : ComponentCode) : (limited code 0).1 = 0 := by
  cases code <;> rfl

/-- The points of a rule with several optional hits. -/
theorem hits_points (code : ComponentCode) (substantive : Bool) (hits : List Hit) (none detail : String) :
    (if hits.isEmpty then emptyComponent code substantive none
      else finalize code substantive hits detail).component.points = (limited code (sumPoints hits)).1 := by
  split
  · next h =>
    rw [List.isEmpty_iff.1 h]
    exact (limited_zero code).symm
  · rfl

/-- The points of a rule with one hit. -/
theorem one_points (code : ComponentCode) (substantive : Bool) (x : Hit) (detail : String) :
    (finalize code substantive [x] detail).component.points = (limited code x.points).1 := by
  show (limited code (sumPoints [x])).1 = _
  simp [sumPoints]

theorem emptyComponent_points (code : ComponentCode) (substantive : Bool) (detail : String) :
    (emptyComponent code substantive detail).component.points = 0 := rfl

theorem eventTypeBase_points {e e' : TextEvent} (openMarket : Bool) (ht : e.eventType = e'.eventType)
    (hi : e.filingItems = e'.filingItems) (ha : e.isAmendment = e'.isAmendment) :
    (eventTypeBase e openMarket).component.points = (eventTypeBase e' openMarket).component.points := by
  have hhigh : ∀ base, (highItemHit e base).toList.map (·.points) = (highItemHit e' base).toList.map (·.points) := by
    intro base
    unfold highItemHit
    rw [hi]
    split
    · split <;> rfl
    · rfl
  unfold eventTypeBase
  dsimp only
  rw [ht, ha]
  split
  · rfl
  · rw [hits_points, hits_points]
    simp only [sumPoints, List.map_append, List.sum_append, hhigh]
    congr 3
    · congr 1
      split <;> rfl
    · split <;> rfl

theorem materialItems_points {e e' : TextEvent} (hi : e.filingItems = e'.filingItems) :
    (materialItems e).component.points = (materialItems e').component.points := by
  unfold materialItems
  dsimp only
  rw [hi]
  split <;> rfl

/-! ## The filing comparison -/

theorem forall₂_and_zip {α β : Type} {R S : α → β → Prop} {l : List α} {l' : List β} (h : List.Forall₂ R l l')
    (hs : ∀ p ∈ l.zip l', S p.1 p.2) : List.Forall₂ (fun a b => R a b ∧ S a b) l l' := by
  obtain ⟨hlen, hr⟩ := List.forall₂_iff_zip.1 h
  exact List.forall₂_iff_zip.2 ⟨hlen, fun hab => ⟨hr hab, hs _ hab⟩⟩

theorem rel_getLast? {α β : Type} {R : α → β → Prop} {l : List α} {l' : List β} (h : List.Forall₂ R l l') :
    Option.Rel R l.getLast? l'.getLast? := by
  rw [List.getLast?_eq_head?_reverse, List.getLast?_eq_head?_reverse]
  have hr : List.Forall₂ R l.reverse l'.reverse := List.rel_reverse h
  revert hr
  generalize l.reverse = k
  generalize l'.reverse = k'
  intro hr
  cases hr with
  | nil => exact .none
  | cons hab _ => exact .some hab

/-- The rows that a test accepts, of rows that the test treats alike. -/
theorem forall₂_filter {α : Type} {R : α → α → Prop} {p : α → Bool} {l l' : List α} (h : List.Forall₂ R l l')
    (hp : ∀ a b, R a b → p a = p b) :
    List.Forall₂ (fun a b => R a b ∧ p a = true) (l.filter p) (l'.filter p) := by
  induction h with
  | nil => exact .nil
  | @cons a b l l' hab _ ih =>
    cases ha : p a with
    | false => rwa [List.filter_cons_of_neg (by simp [ha]), List.filter_cons_of_neg (by simp [← hp a b hab, ha])]
    | true =>
      rw [List.filter_cons_of_pos ha, List.filter_cons_of_pos (hp a b hab ▸ ha)]
      exact .cons ⟨hab, ha⟩ ih

variable {lib : Lib}

/-- Two sections of one kind that a rule treats alike. -/
def SameSection (s s' : SectionChange) : Prop :=
  (s.sectionType = s'.sectionType ∧ s.status = s'.status) ∧ (s.status = .found →
    SameSide [decileChangeThreshold (.section s.sectionType), tercileChangeThreshold (.section s.sectionType)]
      s.diffRatio s'.diffRatio)

theorem sameSections {c c' : FilingComparison} (h : SameComparison lib c c') (ht : SameTiers c c') :
    List.Forall₂ SameSection c.sectionChanges c'.sectionChanges :=
  (forall₂_and_zip h.sections ht.sections).imp fun _ _ hs => ⟨⟨hs.1.1, hs.1.2.1⟩, hs.2⟩

theorem sectionHit_points {c c' : FilingComparison} {id id' : Option String} (h : SameComparison lib c c')
    (ht : SameTiers c c') (key : SectionType) :
    (sectionHit lib (buildWhatChanged c) id key).map (·.points) =
      (sectionHit lib (buildWhatChanged c') id' key).map (·.points) := by
  have hrel := rel_getLast? (forall₂_filter (p := fun s => decide (s.sectionType = key)) (sameSections h ht)
    fun s s' hs => by rw [hs.1.1])
  unfold sectionHit buildWhatChanged
  dsimp only
  generalize (c.sectionChanges.filter fun s => decide (s.sectionType = key)).getLast? = o at hrel
  generalize (c'.sectionChanges.filter fun s => decide (s.sectionType = key)).getLast? = o' at hrel
  cases hrel with
  | none => rfl
  | @some s s' hs =>
    obtain ⟨⟨⟨htype, hstatus⟩, hside⟩, hkey⟩ := hs
    have hkey : s.sectionType = key := of_decide_eq_true hkey
    by_cases hfound : s.status = .found
    · have hside := hside hfound
      rw [hkey] at hside
      have hfound' : s'.status = .found := hstatus ▸ hfound
      simp only [Option.filter_some, hfound, hfound', decide_true, if_true, Option.bind_some]
      cases hv : s.diffRatio with
      | none =>
        cases hw : s'.diffRatio with
        | none => rfl
        | some w =>
          have := hside.isSome
          rw [hv, hw] at this
          cases this
      | some v =>
        cases hw : s'.diffRatio with
        | none =>
          have := hside.isSome
          rw [hv, hw] at this
          cases this
        | some w =>
          have hdecile := hside.reach (decileChangeThreshold (.section key)) (by simp)
          have htercile := hside.reach (tercileChangeThreshold (.section key)) (by simp)
          rw [hv, hw, Option.any_some, Option.any_some] at hdecile htercile
          dsimp only
          rw [hdecile, htercile]
          split
          · rfl
          · split <;> rfl
    · have hfound' : ¬ s'.status = .found := hstatus ▸ hfound
      simp only [Option.filter_some, hfound, hfound', decide_false, Bool.false_eq_true, if_false, Option.bind_none]

theorem wholeDocumentHit_points {c c' : FilingComparison} {id id' : Option String} (ht : SameTiers c c') :
    (wholeDocumentHit lib (buildWhatChanged c) id).map (·.points) =
      (wholeDocumentHit lib (buildWhatChanged c') id').map (·.points) := by
  have hside := ht.whole
  unfold wholeDocumentHit buildWhatChanged
  dsimp only
  generalize c.wholeDocumentChange.map (·.diffRatio) = o at hside
  generalize c'.wholeDocumentChange.map (·.diffRatio) = o' at hside
  cases o with
  | none =>
    cases o' with
    | none => rfl
    | some w => exact absurd hside.isSome (by simp)
  | some v =>
    cases o' with
    | none => exact absurd hside.isSome (by simp)
    | some w =>
      have hreach := hside.reach _ List.mem_cons_self
      rw [Option.any_some, Option.any_some] at hreach
      dsimp only
      rw [hreach]
      split <;> rfl

theorem newPassagesHit_points {c c' : FilingComparison} {id id' : Option String} (ht : SameTiers c c') :
    (newPassagesHit (buildWhatChanged c) id).map (·.points) =
      (newPassagesHit (buildWhatChanged c') id').map (·.points) := by
  have hp := ht.passages
  unfold newPassagesHit buildWhatChanged
  dsimp only
  cases hc : newMaterialPassages c <;> cases hc' : newMaterialPassages c' <;> rw [hc, hc'] at hp <;>
    first | rfl | cases hp

theorem sumPoints_toList {o o' : Option Hit} (h : o.map (·.points) = o'.map (·.points)) :
    sumPoints o.toList = sumPoints o'.toList := by
  cases o with
  | none =>
    cases o' with
    | none => rfl
    | some x => cases h
  | some x =>
    cases o' with
    | none => cases h
    | some x' =>
      have hx : x.points = x'.points := Option.some.inj h
      simp [sumPoints, hx]

theorem filingChange_points {o o' : Option FilingComparison} {id id' : Option String}
    (h : Option.Rel (fun c c' => SameComparison lib c c' ∧ SameTiers c c') o o') :
    (filingChange lib (o.map buildWhatChanged) id).component.points =
      (filingChange lib (o'.map buildWhatChanged) id').component.points := by
  cases h with
  | none => rfl
  | @some c c' hc =>
    unfold filingChange
    dsimp only [Option.map_some]
    rw [hits_points, hits_points]
    have hsections : sumPoints (filingChangeSectionKeys.filterMap (sectionHit lib (buildWhatChanged c) id)) =
        sumPoints (filingChangeSectionKeys.filterMap (sectionHit lib (buildWhatChanged c') id')) := by
      unfold sumPoints
      rw [List.map_filterMap, List.map_filterMap]
      exact congrArg List.sum (List.filterMap_congr fun key _ => sectionHit_points hc.1 hc.2 key)
    rw [sumPoints_append, sumPoints_append, sumPoints_append, sumPoints_append, hsections,
      sumPoints_toList (wholeDocumentHit_points hc.2), sumPoints_toList (newPassagesHit_points hc.2)]

theorem riskLanguage_points {o o' : Option FilingComparison} {id id' : Option String}
    (h : Option.Rel (SameComparison lib) o o') :
    (riskLanguage (o.map buildWhatChanged) id).component.points =
      (riskLanguage (o'.map buildWhatChanged) id').component.points := by
  cases h with
  | none => rfl
  | @some c c' hc =>
    have hrel := rel_getLast? (forall₂_filter (p := fun s => decide (s.category = .negativeRisk)) hc.keywords
      fun s s' hs => by rw [hs.1])
    unfold riskLanguage buildWhatChanged
    dsimp only [Option.map_some, Option.bind_some]
    generalize (c.keywordCategorySummaries.filter fun s => decide (s.category = .negativeRisk)).getLast? = o at hrel
    generalize (c'.keywordCategorySummaries.filter fun s => decide (s.category = .negativeRisk)).getLast? = o' at hrel
    cases hrel with
    | none => rfl
    | @some s s' hs =>
      dsimp only
      rw [hs.1.2]
      split
      · rw [emptyComponent_points]
      · rw [one_points, one_points]

/-! ## The largest of several sizes -/

theorem le_self_of_ne_nan {a : PyFloat} (h : a ≠ .nan) : a.le a = true := by
  cases a with
  | nan => exact absurd rfl h
  | inf s => cases s <;> rfl
  | fin q => simp [PyFloat.le]

/-- The larger of two numbers reaches what one of them reaches. -/
theorem le_larger {b m : PyFloat} (hb : b ≠ .nan) (hm : m ≠ .nan) (t : PyFloat) :
    t.le (if b.lt m then m else b) = (t.le b || t.le m) := by
  split
  · next h =>
    cases ht : t.le b with
    | false => rfl
    | true => exact PyFloat.le_chain ht (PyFloat.le_of_lt_true h)
  · next h =>
    have hle : m.le b = true :=
      PyFloat.le_of_not_lt (le_self_of_ne_nan hb) (le_self_of_ne_nan hm) (Bool.not_eq_true _ ▸ h)
    cases ht : t.le m with
    | false => rw [Bool.or_false]
    | true => rw [Bool.or_true, PyFloat.le_chain ht hle]

theorem lt_nan (b : PyFloat) : b.lt .nan = false := by
  cases b with
  | inf s => cases s <;> rfl
  | _ => rfl

theorem sameSide_some {ths : List PyFloat} {v w : PyFloat} (hnan : v = .nan ↔ w = .nan)
    (h : ∀ t ∈ ths, t.le v = t.le w) : SameSide ths (some v) (some w) :=
  ⟨rfl, by simpa using hnan, h⟩

theorem SameSide.larger {ths : List PyFloat} {b b' m m' : PyFloat} (hb : SameSide ths (some b) (some b'))
    (hm : SameSide ths (some m) (some m')) :
    SameSide ths (some (if b.lt m then m else b)) (some (if b'.lt m' then m' else b')) := by
  have hbnan : b = .nan ↔ b' = .nan := by simpa using hb.nan
  have hmnan : m = .nan ↔ m' = .nan := by simpa using hm.nan
  by_cases hbn : b = .nan
  · -- a first size that is no number stays
    rw [hbn, hbnan.1 hbn] at hb ⊢
    exact hb
  · have hbn' : b' ≠ .nan := fun h => hbn (hbnan.2 h)
    by_cases hmn : m = .nan
    · rw [hmn, hmnan.1 hmn, lt_nan, lt_nan]
      exact hb
    · have hmn' : m' ≠ .nan := fun h => hmn (hmnan.2 h)
      refine sameSide_some ?_ fun t ht => ?_
      · constructor
        · intro h
          split at h
          · exact absurd h hmn
          · exact absurd h hbn
        · intro h
          split at h
          · exact absurd h hmn'
          · exact absurd h hbn'
      · have hbt : t.le b = t.le b' := hb.reach t ht
        have hmt : t.le m = t.le m' := hm.reach t ht
        rw [le_larger hbn hmn, le_larger hbn' hmn', hbt, hmt]

/-- Two optional sizes, either both absent or on the same sides. -/
theorem SameSide.cases {ths : List PyFloat} {v w : Option PyFloat}
    (h : SameSide ths (v.map PyFloat.abs) (w.map PyFloat.abs)) :
    (v = none ∧ w = none) ∨ ∃ a b, v = some a ∧ w = some b ∧ SameSide ths (some a.abs) (some b.abs) := by
  cases v with
  | none =>
    cases w with
    | none => exact .inl ⟨rfl, rfl⟩
    | some b => exact absurd h.isSome (by simp)
  | some a =>
    cases w with
    | none => exact absurd h.isSome (by simp)
    | some b => exact .inr ⟨a, b, rfl, rfl, h⟩

abbrev xbrlThresholds : List PyFloat := [xbrlDecileAbsRelativeDelta, xbrlTercileAbsRelativeDelta]

/-- One row of `largestMagnitude`. -/
def keepLargerChange (best : Option (PyFloat × XbrlChange)) (x : XbrlChange) : Option (PyFloat × XbrlChange) :=
  match x.relativeDelta with
  | none => best
  | some delta => match best with
    | none => some (delta.abs, x)
    | some b => if b.1.lt delta.abs then some (delta.abs, x) else some b

theorem keepLargerChange_same {r r' : XbrlChange} {o o' : Option (PyFloat × XbrlChange)}
    (hr : SameSide xbrlThresholds (r.relativeDelta.map PyFloat.abs) (r'.relativeDelta.map PyFloat.abs))
    (ho : Option.Rel (fun b b' => SameSide xbrlThresholds (some b.1) (some b'.1)) o o') :
    Option.Rel (fun b b' => SameSide xbrlThresholds (some b.1) (some b'.1)) (keepLargerChange o r)
      (keepLargerChange o' r') := by
  unfold keepLargerChange
  rcases hr.cases with ⟨hn, hn'⟩ | ⟨a, b, ha, hb, hside⟩
  · rw [hn, hn']
    exact ho
  · rw [ha, hb]
    cases ho with
    | none => exact .some hside
    | @some p p' hp =>
      have hlarger := hp.larger hside
      dsimp only
      by_cases h1 : p.1.lt a.abs <;> by_cases h2 : p'.1.lt b.abs <;>
        simp only [h1, h2, if_true, if_false, Bool.false_eq_true] at hlarger ⊢ <;> exact .some hlarger

theorem largestMagnitude_same {l l' : List XbrlChange}
    (h : List.Forall₂ (fun r r' : XbrlChange => SameSide xbrlThresholds (r.relativeDelta.map PyFloat.abs)
      (r'.relativeDelta.map PyFloat.abs)) l l') :
    Option.Rel (fun b b' => SameSide xbrlThresholds (some b.1) (some b'.1)) (largestMagnitude l)
      (largestMagnitude l') := by
  suffices hfold : ∀ o o',
      Option.Rel (fun b b' : PyFloat × XbrlChange => SameSide xbrlThresholds (some b.1) (some b'.1)) o o' →
      Option.Rel (fun b b' => SameSide xbrlThresholds (some b.1) (some b'.1)) (l.foldl keepLargerChange o)
        (l'.foldl keepLargerChange o') from hfold none none .none
  induction h with
  | nil => exact fun _ _ ho => ho
  | cons hr _ ih => exact fun o o' ho => ih _ _ (keepLargerChange_same hr ho)

theorem xbrlMagnitude_points {o o' : Option FilingComparison} {id id' : Option String}
    (h : Option.Rel (fun c c' => SameComparison lib c c' ∧ SameTiers c c') o o') :
    (xbrlMagnitude lib (o.map buildWhatChanged) id).component.points =
      (xbrlMagnitude lib (o'.map buildWhatChanged) id').component.points := by
  cases h with
  | none => rfl
  | @some c c' hc =>
    have hrows := forall₂_filter (p := fun x => xbrlMagnitudeFields.contains x.field && x.status == "FOUND")
      (forall₂_and_zip (S := fun r r' : XbrlChange => SameSide xbrlThresholds (r.relativeDelta.map PyFloat.abs)
        (r'.relativeDelta.map PyFloat.abs)) hc.1.xbrl hc.2.xbrl) fun r r' hr => by rw [hr.1.1, hr.1.2.1]
    have hrel := largestMagnitude_same (hrows.imp fun _ _ hr => hr.1.2)
    unfold xbrlMagnitude
    dsimp only [Option.map_some, Option.elim_some, buildWhatChanged]
    generalize largestMagnitude (c.xbrlChanges.filter _) = b at hrel
    generalize largestMagnitude (c'.xbrlChanges.filter _) = b' at hrel
    cases hrel with
    | none => rfl
    | @some b b' hb =>
      have hdecile : xbrlDecileAbsRelativeDelta.le b.1 = xbrlDecileAbsRelativeDelta.le b'.1 := hb.reach _ (by simp)
      have htercile : xbrlTercileAbsRelativeDelta.le b.1 = xbrlTercileAbsRelativeDelta.le b'.1 := hb.reach _ (by simp)
      dsimp only
      rw [hdecile, htercile]
      split
      · rw [one_points, one_points]
      · split
        · rw [one_points, one_points]
        · rw [emptyComponent_points, emptyComponent_points]

/-! ## Insider activity, rarity -/

/-- One window of `largestTransaction`. -/
def keepLarger (best : PyFloat × Option String) (agg : Insider.RollingOpenMarketAggregate) : PyFloat × Option String :=
  match agg.largestSingleTransactionValue with
  | none => best
  | some v => if best.1.lt v.abs then (v.abs, agg.largestSingleTransactionId) else best

theorem keepLarger_same {ths : List PyFloat} {g g' : Insider.RollingOpenMarketAggregate}
    {b b' : PyFloat × Option String} (hg : SameSide ths (g.largestSingleTransactionValue.map PyFloat.abs)
      (g'.largestSingleTransactionValue.map PyFloat.abs)) (hb : SameSide ths (some b.1) (some b'.1)) :
    SameSide ths (some (keepLarger b g).1) (some (keepLarger b' g').1) := by
  unfold keepLarger
  rcases hg.cases with ⟨hn, hn'⟩ | ⟨v, w, hv, hw, hside⟩
  · rw [hn, hn']
    exact hb
  · rw [hv, hw]
    have hlarger := hb.larger hside
    dsimp only
    by_cases h1 : b.1.lt v.abs <;> by_cases h2 : b'.1.lt w.abs <;>
      simp only [h1, h2, if_true, if_false, Bool.false_eq_true] at hlarger ⊢ <;> exact hlarger

theorem keepLarger_foldl_same {ths : List PyFloat} {l l' : List Insider.RollingOpenMarketAggregate}
    (h : List.Forall₂ (fun g g' : Insider.RollingOpenMarketAggregate => SameSide ths
      (g.largestSingleTransactionValue.map PyFloat.abs) (g'.largestSingleTransactionValue.map PyFloat.abs)) l l')
    {b b' : PyFloat × Option String} (hb : SameSide ths (some b.1) (some b'.1)) :
    SameSide ths (some (l.foldl keepLarger b).1) (some (l'.foldl keepLarger b').1) := by
  induction h generalizing b b' with
  | nil => exact hb
  | cons hg _ ih => exact ih (keepLarger_same hg hb)

theorem largestTransaction_same {a a' : InsiderActivity}
    (h : List.Forall₂ (fun g g' : Insider.RollingOpenMarketAggregate => SameSide [insiderLargeTransactionUsd]
      (g.largestSingleTransactionValue.map PyFloat.abs) (g'.largestSingleTransactionValue.map PyFloat.abs))
        a.openMarketAggregates a'.openMarketAggregates) :
    SameSide [insiderLargeTransactionUsd] (some (largestTransaction a).1) (some (largestTransaction a').1) := by
  have hzero : SameSide [insiderLargeTransactionUsd] (some (0 : PyFloat)) (some 0) := ⟨rfl, Iff.rfl, fun _ _ => rfl⟩
  exact keepLarger_foldl_same (b := (0, none)) h hzero

theorem rarityComponent_points {r r' : Option RarityResult} (h : rarityPoints r = rarityPoints r') :
    (rarityComponent r).component.points = (rarityComponent r').component.points := by
  have hpoints : ∀ r, (rarityComponent r).component.points = (limited .rarity (rarityPoints r)).1 := by
    intro r
    unfold rarityComponent rarityPoints
    cases r with
    | none => rfl
    | some r =>
      dsimp only [Option.elim_some]
      split
      · next hle =>
        rw [max_eq_left hle]
        rfl
      · next hle =>
        rw [max_eq_right (not_le.1 hle).le]
        exact one_points _ _ _ _
  rw [hpoints, hpoints, h]

theorem insiderActivity_points {o o' : Option InsiderActivity}
    (h : Option.Rel (fun a a' => SameActivity lib a a' ∧ SameSide [insiderLargeTransactionUsd]
      (some (largestTransaction a).1) (some (largestTransaction a').1)) o o') :
    (insiderActivity lib o).component.points = (insiderActivity lib o').component.points := by
  cases h with
  | none => rfl
  | @some a a' ha =>
    have hreach : insiderLargeTransactionUsd.le (largestTransaction a).1 =
        insiderLargeTransactionUsd.le (largestTransaction a').1 := ha.2.reach _ List.mem_cons_self
    have hclusters := ha.1.clusters
    unfold insiderActivity
    dsimp only
    rw [hits_points, hits_points, sumPoints_append, sumPoints_append, hreach]
    congr 3
    · split <;> rfl
    · generalize a.clusters = l at hclusters
      generalize a'.clusters = l' at hclusters
      cases l <;> cases l' <;> first | rfl | cases hclusters

/-! ## Data quality -/

theorem sortedCommon_length {flags flags' : List String} (known : List String) (h : flags.Perm flags') :
    (sortedCommon flags known).length = (sortedCommon flags' known).length := by
  unfold sortedCommon
  rw [List.length_insertionSort, List.length_insertionSort]
  exact (h.filter _).dedup.length_eq

theorem flagsHit_points {code subject : String} {flags flags' : List String} {ref ref' : Option String}
    (h : flags.length = flags'.length) :
    (flagsHit code subject flags ref).map (·.points) = (flagsHit code subject flags' ref').map (·.points) := by
  cases flags <;> cases flags' <;> first | rfl | cases h

/-- Points of a hit that only an input that is there can have. -/
theorem bind_hit_points {α : Type} {R : α → α → Prop} {f g : α → Option Hit} {o o' : Option α}
    (h : Option.Rel R o o') (hf : ∀ a b, R a b → (f a).map (·.points) = (g b).map (·.points)) :
    (o.bind f).map (·.points) = (o'.bind g).map (·.points) := by
  cases h with
  | none => rfl
  | some hab => exact hf _ _ hab

/-- A source status that is stale or down is in the fingerprint as it is. -/
theorem filter_statusText (s : Option String) :
    s.filter (fun t => t == "STALE" || t == "DOWN") =
      (some (statusText s)).filter fun t => t == "STALE" || t == "DOWN" := by
  cases s with
  | none => rfl
  | some t =>
    by_cases ht : t = ""
    · rw [ht]
      rfl
    · simp only [statusText, if_neg ht]

theorem statusText_down {s : Option String} : s = some "DOWN" ↔ statusText s = "DOWN" := by
  cases s with
  | none => simp [statusText]
  | some t =>
    by_cases ht : t = ""
    · simp [statusText, ht]
    · simp [statusText, ht]

theorem qualityPenalty_points {x y : Inputs} (h : SameText lib x y) :
    (qualityPenalty x.event x.comparison x.insiderActivity x.sourceStatus).component.points =
      (qualityPenalty y.event y.comparison y.insiderActivity y.sourceStatus).component.points := by
  have hcount : ∀ (e : TextEvent) (flags : List String),
      sumPoints (flags.map fun f => (⟨"EVENT_DATA_INCOMPLETE", "event evidence is incomplete (" ++ f ++ ")",
        qualityPenaltyPerIssue, some e.accession⟩ : Hit)) = flags.length * qualityPenaltyPerIssue := by
    intro e flags
    simp [sumPoints, List.map_map, Function.comp_def]
  have hcomparison := bind_hit_points (f := fun c => flagsHit "FILING_COMPARISON_INCOMPLETE" "filing comparison"
    (sortedCommon c.dataQualityFlags qualityComparisonFlags) (some c.comparisonId)) (g := fun c => flagsHit
      "FILING_COMPARISON_INCOMPLETE" "filing comparison" (sortedCommon c.dataQualityFlags qualityComparisonFlags)
        (some c.comparisonId)) h.comparison fun c c' hc => flagsHit_points (sortedCommon_length _ hc.flags)
  have hinsider := bind_hit_points (f := fun a => flagsHit "INSIDER_DATA_INCOMPLETE" "insider" (sortedCommon
    a.dataQualityFlags qualityInsiderFlags) none) (g := fun a => flagsHit "INSIDER_DATA_INCOMPLETE" "insider"
      (sortedCommon a.dataQualityFlags qualityInsiderFlags) none) h.insider
        fun a a' ha => flagsHit_points (sortedCommon_length _ ha.flags)
  have hsource : x.sourceStatus.filter (fun s => s == "STALE" || s == "DOWN") =
      y.sourceStatus.filter fun s => s == "STALE" || s == "DOWN" := by
    rw [filter_statusText, h.source, ← filter_statusText]
  unfold qualityPenalty
  dsimp only
  rw [hits_points, hits_points]
  simp only [sumPoints_append, hcount, sortedCommon_length qualityEventFlags h.flags, sumPoints_toList hcomparison,
    sumPoints_toList hinsider, hsource]

theorem qualityTriggers_same {x y : Inputs} (h : SameText lib x y) : qualityTriggers x = qualityTriggers y := by
  have hmissing : x.event.dataQualityFlags.contains "missing_acceptance_timestamp" =
      y.event.dataQualityFlags.contains "missing_acceptance_timestamp" := by
    rw [Bool.eq_iff_iff, List.contains_iff_mem, List.contains_iff_mem]
    exact h.flags.mem_iff
  have hdown : x.sourceStatus = some "DOWN" ↔ y.sourceStatus = some "DOWN" := by
    rw [statusText_down, statusText_down, h.source]
  unfold qualityTriggers
  rw [hmissing]
  simp only [hdown]

/-! ## All components -/

theorem recency_points {e e' : TextEvent} (now : Utc) (h : e.acceptedAtUtc = e'.acceptedAtUtc) :
    (recency e now).component.points = (recency e' now).component.points := by
  unfold recency
  rw [h]

theorem SameText.comparisons {x y : Inputs} (h : SameText lib x y) (hb : SameBlind x y) :
    Option.Rel (fun c c' => SameComparison lib c c' ∧ SameTiers c c') x.comparison y.comparison := by
  have hc := h.comparison
  have ht := hb.comparisons
  generalize x.comparison = o at hc ht
  generalize y.comparison = o' at hc ht
  cases hc with
  | none => exact .none
  | some hc => exact .some ⟨hc, ht _ rfl _ rfl⟩

theorem SameText.activities {x y : Inputs} (h : SameText lib x y) (hb : SameBlind x y) :
    Option.Rel (fun a a' => SameActivity lib a a' ∧ SameSide [insiderLargeTransactionUsd]
      (some (largestTransaction a).1) (some (largestTransaction a').1)) x.insiderActivity y.insiderActivity := by
  have ha := h.insider
  have hl := hb.largest
  generalize x.insiderActivity = o at ha hl
  generalize y.insiderActivity = o' at ha hl
  cases ha with
  | none => exact .none
  | some ha =>
    exact .some ⟨ha, largestTransaction_same ((forall₂_and_zip ha.aggregates (hl _ rfl _ rfl)).imp fun _ _ hg => hg.2)⟩

/-- Every rule gives the same points. -/
theorem points_same {x y : Inputs} (h : SameText lib x y) (hb : SameBlind x y) (hnow : x.now = y.now) :
    (scoredComponents lib x).map (·.component.points) = (scoredComponents lib y).map (·.component.points) := by
  have hcomparisons := h.comparisons hb
  have hfiling :
      (filingChange lib (x.comparison.map buildWhatChanged) (x.comparison.map (·.comparisonId))).component.points =
      (filingChange lib (y.comparison.map buildWhatChanged) (y.comparison.map (·.comparisonId))).component.points :=
    filingChange_points hcomparisons
  have hrisk :
      (riskLanguage (x.comparison.map buildWhatChanged) (x.comparison.map (·.comparisonId))).component.points =
      (riskLanguage (y.comparison.map buildWhatChanged) (y.comparison.map (·.comparisonId))).component.points :=
    riskLanguage_points h.comparison
  have hxbrl :
      (xbrlMagnitude lib (x.comparison.map buildWhatChanged) (x.comparison.map (·.comparisonId))).component.points =
      (xbrlMagnitude lib (y.comparison.map buildWhatChanged) (y.comparison.map (·.comparisonId))).component.points :=
    xbrlMagnitude_points hcomparisons
  unfold scoredComponents
  simp only [List.map_cons, List.map_nil]
  rw [eventTypeBase_points (hasOpenMarketInsider x.insiderActivity) h.eventType h.items h.amendment,
    materialItems_points h.items, hfiling, hrisk, hxbrl, insiderActivity_points (h.activities hb),
    rarityComponent_points hb.rarity, recency_points x.now h.accepted, qualityPenalty_points h, hb.openMarket,
    h.simultaneous, h.onWatchlist, h.pinned, hnow]

/-! ## The verdict -/

/-- What a significance says: the score, the band and the substantive points. -/
structure SameVerdict (s s' : InformationSignificance) : Prop where
  score : s.score = s'.score
  band : s.band = s'.band
  substantivePoints : s.substantivePoints = s'.substantivePoints

/-- The components of `evaluate_significance`. -/
def componentsOf (lib : Lib) (i : Inputs) : List SignificanceComponent := (scoredComponents lib i).map (·.component)

/-- Components with the points and the families of others. -/
theorem totals_of_points {cs cs' : List SignificanceComponent} (hp : cs.map (·.points) = cs'.map (·.points))
    (hs : cs.map (·.substantive) = cs'.map (·.substantive)) :
    rawScore cs = rawScore cs' ∧ substantivePoints cs = substantivePoints cs' ∧
      substantiveFamilies cs = substantiveFamilies cs' := by
  refine ⟨congrArg List.sum hp, ?_⟩
  have hall := forall₂_and_zip (S := fun c c' => c.substantive = c'.substantive)
    (forall₂_of_map_eq hp fun _ _ _ _ h => h) fun p hmem => ?_
  · have hsub := forall₂_filter (p := fun c => c.substantive && decide (0 < c.points)) hall
      fun c c' hc => by rw [hc.1, hc.2]
    refine ⟨?_, hsub.length_eq⟩
    have hpoints : (substantive cs).map (·.points) = (substantive cs').map (·.points) := by
      refine List.forall₂_eq_eq_eq ▸ List.forall₂_map_left_iff.2 (List.forall₂_map_right_iff.2 ?_)
      exact hsub.imp fun _ _ hc => hc.1.1
    exact congrArg List.sum hpoints
  · have hrel := forall₂_of_map_eq (R := fun c c' : SignificanceComponent => c.substantive = c'.substantive) hs
      fun _ _ _ _ h => h
    exact (List.forall₂_iff_zip.1 hrel).2 hmem

theorem sameVerdict {x y : Inputs} (h : SameText lib x y) (hb : SameBlind x y) (hnow : x.now = y.now) :
    SameVerdict (evaluateSignificance lib x) (evaluateSignificance lib y) := by
  have hpoints : (componentsOf lib x).map (·.points) = (componentsOf lib y).map (·.points) := by
    unfold componentsOf
    rw [List.map_map, List.map_map]
    exact points_same h hb hnow
  have hsubstantive : ∀ i, (componentsOf lib i).map (·.substantive) = scoreFamilies.map (·.2) := by
    intro i
    rw [← components_families lib i, componentsOf, List.map_map, List.map_map]
    rfl
  obtain ⟨hraw, hsub, hfamilies⟩ :=
    totals_of_points hpoints ((hsubstantive x).trans (hsubstantive y).symm)
  refine ⟨congrArg clampScore hraw, ?_, hsub⟩
  show (heldBand (componentsOf lib x) _).1 = (heldBand (componentsOf lib y) _).1
  unfold heldBand
  rw [hraw, hsub, hfamilies, qualityTriggers_same h]

/-! ## Passages of another section -/

/-- Texts joined with a mark before each character and another one after each text. -/
def markedHash (parts : List String) : String :=
  String.ofList (parts.flatMap fun p => p.toList.flatMap (fun c => ['+', c]) ++ ['.'])

theorem marked_inj {p q r r' : List Char}
    (h : p.flatMap (fun c => ['+', c]) ++ '.' :: r = q.flatMap (fun c => ['+', c]) ++ '.' :: r') : p = q ∧ r = r' := by
  induction p generalizing q with
  | nil =>
    cases q with
    | nil => exact ⟨rfl, (List.cons.inj h).2⟩
    | cons d q => exact absurd (List.cons.inj h).1 (by decide)
  | cons c p ih =>
    cases q with
    | nil => exact absurd (List.cons.inj h).1 (by decide)
    | cons d q =>
      obtain ⟨rfl, hrest⟩ := List.cons.inj (List.cons.inj h).2
      obtain ⟨rfl, hr⟩ := ih hrest
      exact ⟨rfl, hr⟩

theorem markedHash_injective : Function.Injective markedHash := by
  intro ps
  induction ps with
  | nil =>
    intro qs h
    cases qs with
    | nil => rfl
    | cons q qs =>
      have h := String.ofList_injective h
      simp at h
  | cons p ps ih =>
    intro qs h
    have h := String.ofList_injective h
    cases qs with
    | nil => simp at h
    | cons q qs =>
      simp only [List.flatMap_cons, List.append_assoc, List.singleton_append] at h
      obtain ⟨hpq, hrest⟩ := marked_inj h
      rw [String.toList_inj.1 hpq, ih (congrArg String.ofList hrest)]

/-- A library that prints nothing and whose hash is injective. -/
def markedLib : Lib := ⟨fun _ => "", fun _ => "", fun _ _ => "", markedHash⟩

/-- A quarterly report whose new passages are in the given sections. -/
def passageInputs (sections : List String) : Inputs where
  event :=
    { eventId := "EVT:1", symbol := "ACME", eventType := .quarterlyFiling, formType := "10-Q", filingItems := []
      accession := "0000000001-25-000001", acceptedAtUtc := none, isAmendment := false, sourceHash := none
      dataQualityFlags := [] }
  comparison := some
    { comparisonId := "CMP:1", currentDocumentHash := some "a1", priorDocumentHash := some "b2"
      wholeDocumentChange := none, sectionChanges := [], keywordCategorySummaries := [], xbrlChanges := []
      newPassages := sections.map PassageChange.mk, dataQualityFlags := [] }
  insiderActivity := none
  rarityResult := none
  onWatchlist := false
  pinned := false
  simultaneousTypeCount := 1
  sourceStatus := some "OK"
  now := ⟨7300000, by decide⟩
  rulesetVersion := rulesetVersion

theorem passages_fingerprint {sections sections' : List String} (h : sections.length = sections'.length) :
    inputFingerprint markedLib (passageInputs sections) = inputFingerprint markedLib (passageInputs sections') := by
  have hcomparison : comparisonPart markedLib (passageInputs sections).comparison =
      comparisonPart markedLib (passageInputs sections').comparison := by
    unfold comparisonPart passageInputs
    dsimp only
    rw [List.length_map, List.length_map, h]
  unfold inputFingerprint
  rw [hcomparison]
  rfl

variable (lib)

/-- What the fingerprint does not tell of two inputs is the same for both. -/
structure Distinguished (x y : Inputs) : Prop where
  readable : Readable lib x y
  blind : SameBlind x y

variable {lib}

/-- The fingerprint does not depend on the time. -/
theorem Distinguished.at {x y : Inputs} (h : Distinguished lib x y) (now : Utc) :
    Distinguished lib x { y with now := now } :=
  ⟨⟨h.readable.event, h.readable.items, h.readable.flags, h.readable.comparison, h.readable.comparisons,
      h.readable.insider, h.readable.activities⟩,
    ⟨h.blind.comparisons, h.blind.largest, h.blind.openMarket, h.blind.rarity⟩⟩

end TalonX.Significance
