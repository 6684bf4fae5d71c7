import TalonX.V2.Paper
import TalonX.V2.ProviderRecords

/-!
# The split trail

What an assessment reads from its evidence and writes to the trail of its position.

- `TrailOk`: what a trail row of a position with a known entry basis says;
- `AssessedFrom`: which events an assessment takes for reflected and which for applicable;
- `Blocked.Refuses`: a stage of the assessment that stops gives a verdict that does not allow settlement;
- `applyAssessed_applied`: the applied rows of a cleared assessment.
-/

set_option autoImplicit false

namespace TalonX.V2

open Transact

variable {s s' : Store} {B : Date} {p : Position} {pid : ℕ}

/-! ## The trail -/

/-- A row agrees with its key, and an applied or reflected split with its side of the entry basis. -/
def TrailOk (B : Date) (r : TrailRow) : Prop :=
  match r.status with
  | .applied => ∃ sym ex, r.actionKey = .split sym ex r.ratio.1 ∧ B < ex
  | .reflectedInEntryBasis => ∃ sym ex q, r.actionKey = .split sym ex q ∧ ex < B
  | .dividendObserved => ∃ sym ex q, r.actionKey = .div sym ex q
  | .blocked _ => True

/-- What the assessments keep: the position, and the rows of its trail. -/
structure TrailHistory (p : Position) (B : Date) (s : Store) : Prop where
  mem : p ∈ s.positions.rows
  rows : ∀ r ∈ s.trail.rows, r.positionId = p.positionId → TrailOk B r

theorem TrailHistory.positionById (h : TrailHistory p B s) : s.positionById p.positionId = some p :=
  SeqTable.byId_eq_some.2 ⟨h.mem, rfl⟩

/-- The row that an action appends. -/
structure AppendedBy (pid : ℕ) (ev : CorporateActionEvent) (st : TrailStatus) (r : TrailRow) : Prop where
  positionId : r.positionId = pid
  actionKey : r.actionKey = ev.actionKey
  kind : r.kind = some ev.kind
  exDate : r.exDate = ev.exDate
  status : r.status = st
  ratio : r.ratio = ev.ratio.getD ⟨1, one_pos⟩

theorem mem_applyPositionAction {ev : CorporateActionEvent} {st : TrailStatus} {r : TrailRow}
    (h : r ∈ (s.applyPositionAction pid ev st).2.trail.rows) : r ∈ s.trail.rows ∨ AppendedBy pid ev st r := by
  unfold Store.applyPositionAction at h
  split at h
  · exact Or.inl h
  · rcases Table.mem_insertOrIgnore h with h | rfl
    · exact Or.inl h
    · exact Or.inr ⟨rfl, rfl, rfl, rfl, rfl, rfl⟩

theorem mem_applyPositionAction_of_mem {ev : CorporateActionEvent} {st : TrailStatus} {r : TrailRow}
    (h : r ∈ s.trail.rows) : r ∈ (s.applyPositionAction pid ev st).2.trail.rows := by
  unfold Store.applyPositionAction
  split
  · exact h
  · exact Table.mem_insertOrIgnore_of_mem h

theorem exists_applyPositionAction (ev : CorporateActionEvent) (st : TrailStatus)
    (h : s.positionById pid = some p) :
    ∃ r ∈ (s.applyPositionAction pid ev st).2.trail.rows, r.positionId = pid ∧ r.actionKey = ev.actionKey := by
  unfold Store.applyPositionAction
  rw [h]
  dsimp only
  obtain ⟨r, hr, hkey⟩ := s.trail.exists_insertOrIgnore
    ⟨pid, ev.actionKey, some ev.kind, ev.exDate, ev.ratio.getD ⟨1, one_pos⟩, st, s.effectiveSharesExact pid,
      if st = .applied then s.effectiveSharesExact pid * (ev.ratio.getD ⟨1, one_pos⟩).1 else s.effectiveSharesExact pid,
      p.positionCost⟩
  exact ⟨r, hr, congrArg Prod.fst hkey, congrArg Prod.snd hkey⟩

theorem positions_applyPositionAction (ev : CorporateActionEvent) (st : TrailStatus) :
    (s.applyPositionAction pid ev st).2.positions = s.positions := by
  unfold Store.applyPositionAction
  split <;> rfl

section Actions

variable {st : TrailStatus} {r : TrailRow}

theorem applyActions_cons (ev : CorporateActionEvent) (evs : List CorporateActionEvent) (s : Store) :
    applyActions pid st s (ev :: evs) = applyActions pid st (s.applyPositionAction pid ev st).2 evs := rfl

theorem positions_applyActions (evs : List CorporateActionEvent) (s : Store) :
    (applyActions pid st s evs).positions = s.positions := by
  induction evs generalizing s with
  | nil => rfl
  | cons ev evs ih =>
    rw [applyActions_cons, ih]
    exact positions_applyPositionAction ev st

theorem mem_applyActions {evs : List CorporateActionEvent} (h : r ∈ (applyActions pid st s evs).trail.rows) :
    r ∈ s.trail.rows ∨ ∃ ev ∈ evs, AppendedBy pid ev st r := by
  induction evs generalizing s with
  | nil => exact Or.inl h
  | cons ev evs ih =>
    rw [applyActions_cons] at h
    rcases ih h with h | ⟨ev', hev', hr⟩
    · rcases mem_applyPositionAction h with h | hr
      · exact Or.inl h
      · exact Or.inr ⟨ev, List.mem_cons_self, hr⟩
    · exact Or.inr ⟨ev', List.mem_cons_of_mem _ hev', hr⟩

theorem mem_applyActions_of_mem {evs : List CorporateActionEvent} (h : r ∈ s.trail.rows) :
    r ∈ (applyActions pid st s evs).trail.rows := by
  induction evs generalizing s with
  | nil => exact h
  | cons ev evs ih =>
    rw [applyActions_cons]
    exact ih (mem_applyPositionAction_of_mem h)

theorem exists_applyActions {evs : List CorporateActionEvent} (hp : s.positionById pid = some p) :
    ∀ ev ∈ evs, ∃ r ∈ (applyActions pid st s evs).trail.rows, r.positionId = pid ∧ r.actionKey = ev.actionKey := by
  induction evs generalizing s with
  | nil => simp
  | cons ev evs ih =>
    intro ev' hev'
    rw [applyActions_cons]
    rcases List.mem_cons.1 hev' with rfl | hev'
    · obtain ⟨r, hr, hrow⟩ := exists_applyPositionAction ev' st hp
      exact ⟨r, mem_applyActions_of_mem hr, hrow⟩
    · refine ih ?_ ev' hev'
      rw [Store.positionById, positions_applyPositionAction]
      exact hp

end Actions

/-! ## Classified evidence -/

theorem mem_cons_and_of {α : Type} {x y : α} {xs : List α} {P : α → Prop} (hy : P y) :
    (x ∈ y :: xs ∧ P x) ↔ x = y ∨ x ∈ xs ∧ P x := by
  rw [List.mem_cons, or_and_right]
  exact or_congr_left ⟨And.left, fun h => ⟨h, h ▸ hy⟩⟩

theorem mem_cons_and_of_not {α : Type} {x y : α} {xs : List α} {P : α → Prop} (hy : ¬ P y) :
    (x ∈ y :: xs ∧ P x) ↔ x ∈ xs ∧ P x := by
  rw [List.mem_cons, or_and_right]
  exact or_iff_right fun h => hy (h.1 ▸ h.2)

/-- A classified split is on the side of the basis that its ex-date is on. -/
theorem classifySplits_ok {b : Date} : ∀ {es rs as : List CorporateActionEvent},
    classifySplits (some b) es = .ok (rs, as) →
      (∀ e, e ∈ rs ↔ e ∈ es ∧ e.exDate.any (· < b)) ∧ ∀ e, e ∈ as ↔ e ∈ es ∧ e.exDate.any (b < ·)
  | [], rs, as, h => by
    obtain ⟨rfl, rfl⟩ := Prod.mk.inj (Except.ok.inj h)
    simp
  | e :: es, rs, as, h => by
    let isBelow : CorporateActionEvent → Prop := fun e => e.exDate.any (· < b) = true
    let isAbove : CorporateActionEvent → Prop := fun e => e.exDate.any (b < ·) = true
    unfold classifySplits at h
    split at h
    · cases h
    · rename_i hnone
      obtain ⟨hr, ha⟩ := classifySplits_ok h
      refine ⟨fun x => ?_, fun x => ?_⟩
      · exact (hr x).trans (mem_cons_and_of_not (P := isBelow) (by simp [isBelow, hnone])).symm
      · exact (ha x).trans (mem_cons_and_of_not (P := isAbove) (by simp [isAbove, hnone])).symm
    · rename_i b' ex hb hex
      obtain rfl := Option.some.inj hb
      split at h
      · rename_i hlt
        cases hc : classifySplits (some b) es with
        | error x => rw [hc] at h; cases h
        | ok ra =>
          obtain ⟨rs', as'⟩ := ra
          rw [hc] at h
          obtain ⟨rfl, rfl⟩ := Prod.mk.inj (Except.ok.inj h)
          obtain ⟨hr, ha⟩ := classifySplits_ok hc
          refine ⟨fun x => ?_, fun x => ?_⟩
          · exact (List.mem_cons.trans (or_congr_right (hr x))).trans
              (mem_cons_and_of (P := isBelow) (by simpa [isBelow, hex] using hlt)).symm
          · exact (ha x).trans (mem_cons_and_of_not (P := isAbove) (by simpa [isAbove, hex] using hlt.le)).symm
      split at h
      · cases h
      · rename_i hnlt hne
        have hgt : b < ex := Nat.lt_of_le_of_ne (Nat.not_lt.1 hnlt) (Ne.symm hne)
        cases hc : classifySplits (some b) es with
        | error x => rw [hc] at h; cases h
        | ok ra =>
          obtain ⟨rs', as'⟩ := ra
          rw [hc] at h
          obtain ⟨rfl, rfl⟩ := Prod.mk.inj (Except.ok.inj h)
          obtain ⟨hr, ha⟩ := classifySplits_ok hc
          refine ⟨fun x => ?_, fun x => ?_⟩
          · exact (hr x).trans (mem_cons_and_of_not (P := isBelow) (by simpa [isBelow, hex] using hgt.le)).symm
          · exact (List.mem_cons.trans (or_congr_right (ha x))).trans
              (mem_cons_and_of (P := isAbove) (by simpa [isAbove, hex] using hgt)).symm

/-- The evidence of a position with a known basis that passes its stage of the assessment. -/
structure AssessedFrom (p : Position) (B stop : Date) (res : CASourceResult) (a : Assessed) : Prop where
  ok : res.ok = true
  splits : ∀ e, e ∈ a.splits ↔ e ∈ res.events ∧ e.kind.isSplit = true ∧ inWindow p.entrySession stop e.exDate = true
  dividends : ∀ e ∈ a.dividends, e ∈ res.events ∧ e.kind = .cashDividend
  reflected : ∀ e, e ∈ a.reflected ↔ e ∈ a.splits ∧ e.exDate.any (· < B)
  applicable : ∀ e, e ∈ a.applicable ↔ e ∈ a.splits ∧ e.exDate.any (B < ·)

theorem assessEvidence_ok {res : CASourceResult} {asOf : Date} {fill : Option ExitFill} {a : Assessed}
    (hB : p.entryProvenance.bind Provenance.basisAsOf = some B) (h : assessEvidence p res asOf fill = .ok a) :
    AssessedFrom p B (assessStop asOf fill) res a := by
  unfold assessEvidence at h
  dsimp only at h
  split at h
  · cases h
  rename_i hok
  split at h
  · cases h
  split at h
  · cases h
  rw [hB] at h
  split at h
  · cases h
  · rename_i rs as hc
    obtain rfl := Except.ok.inj h
    obtain ⟨hr, ha⟩ := classifySplits_ok hc
    refine ⟨by simpa using hok, fun e => ?_, fun e he => ?_, hr, ha⟩
    · simp only [List.mem_filter]
      tauto
    · simp only [List.mem_filter, decide_eq_true_eq] at he
      exact ⟨he.1.1, he.2⟩

/-- Nothing that was applied earlier has disappeared from the evidence. -/
theorem assessTrail_ok {trail : List TrailRow} {a : Assessed} {fill : Option ExitFill}
    {ds : List CorporateActionEvent} (h : assessTrail p trail a fill = .ok ds) :
    ∀ r ∈ trail, r.status = .applied → ∃ e ∈ a.splits, e.actionKey = r.actionKey := by
  intro r hr hst
  unfold assessTrail at h
  split at h
  · cases h
  · rename_i hany
    by_contra hno
    push Not at hno
    refine hany (List.any_eq_true.2 ⟨r, hr, ?_⟩)
    simp only [hst, decide_true, Bool.true_and, decide_eq_true_eq, List.mem_map, not_exists, not_and]
    exact hno

/-! ## Refusals -/

theorem classifySplits_error {basis : Option Date} {es : List CorporateActionEvent} {b : Blocked}
    (h : classifySplits basis es = .error b) : b.status = .block := by
  induction es with
  | nil => cases h
  | cons e es ih =>
    unfold classifySplits at h
    split at h
    · cases h; rfl
    · exact ih h
    · rename_i bs ex _
      split at h
      · cases hc : classifySplits (some bs) es with
        | error x => rw [hc] at h ih; exact ih h
        | ok ra => rw [hc] at h; cases h
      split at h
      · cases h; rfl
      · cases hc : classifySplits (some bs) es with
        | error x => rw [hc] at h ih; exact ih h
        | ok ra => rw [hc] at h; cases h

/-- A verdict that refuses does not allow settlement. -/
def Blocked.Refuses (b : Blocked) : Prop := b.status = .hold ∨ b.status = .block

theorem Blocked.Refuses.settleOk {b : Blocked} (h : b.Refuses) {ds : List CorporateActionEvent} :
    (Verdict.mk b.status (some b.code) ds).settleOk = false := by
  rcases h with h | h <;> simp [Verdict.settleOk, h]

theorem assessEvidence_error {res : CASourceResult} {asOf : Date} {fill : Option ExitFill} {b : Blocked}
    (h : assessEvidence p res asOf fill = .error b) : b.Refuses := by
  unfold assessEvidence at h
  dsimp only at h
  split at h
  · cases h; exact Or.inl rfl
  split at h
  · cases h; exact Or.inr rfl
  split at h
  · cases h; exact Or.inr rfl
  split at h
  · rename_i x hc
    cases h
    exact Or.inr (classifySplits_error hc)
  · cases h

theorem assessExitSplits_error {x : ExitFill} {es : List CorporateActionEvent} {b : Blocked}
    (h : assessExitSplits x es = .error b) : b.Refuses := by
  induction es with
  | nil => cases h
  | cons e es ih =>
    unfold assessExitSplits at h
    split at h
    · exact ih h
    split at h
    · exact ih h
    split at h
    · cases h; exact Or.inr rfl
    split at h
    · cases h; exact Or.inl rfl
    · exact ih h

theorem assessDividends_error {x : ExitFill} {a : Assessed} {b : Blocked}
    (h : assessDividends p x a = .error b) : b.Refuses := by
  unfold assessDividends at h
  split at h
  · cases h
  dsimp only at h
  split at h
  · cases h; exact Or.inr rfl
  split at h
  · cases h; exact Or.inr rfl
  · cases h

theorem assessTrail_error {trail : List TrailRow} {a : Assessed} {fill : Option ExitFill} {b : Blocked}
    (h : assessTrail p trail a fill = .error b) : b.Refuses := by
  unfold assessTrail at h
  split at h
  · cases h; exact Or.inr rfl
  split at h
  · cases h
  split at h
  · rename_i hx
    cases h
    exact assessExitSplits_error hx
  · exact assessDividends_error h

/-! ## What an assessment leaves in the trail -/

theorem CorporateActionEvent.Classified.of_split {e : CorporateActionEvent} (h : e.Classified)
    (hk : e.kind.isSplit = true) :
    ∃ ex ratio, e.exDate = some ex ∧ e.ratio = some ratio ∧ e.actionKey = .split e.symbol ex ratio.1 := by
  unfold CorporateActionEvent.Classified at h
  split at h
  · rename_i heq; rw [heq] at hk; cases hk
  · rename_i heq; rw [heq] at hk; cases hk
  · exact h

/-- An event with the key of a split is that split. -/
theorem CorporateActionEvent.Classified.of_key {e : CorporateActionEvent} {sym : Symbol} {ex : Date} {q : ℚ}
    (h : e.Classified) (hk : e.actionKey = .split sym ex q) :
    e.kind.isSplit = true ∧ e.symbol = sym ∧ e.exDate = some ex ∧ ∃ ratio, e.ratio = some ratio ∧ ratio.1 = q := by
  unfold CorporateActionEvent.Classified at h
  split at h
  · obtain ⟨ex', rate, -, -, hkey⟩ := h
    rw [hkey] at hk
    cases hk
  · exact absurd hk (h sym ex q).1
  · rename_i hdiv huns
    obtain ⟨ex', ratio, hex, hratio, hkey⟩ := h
    rw [hkey] at hk
    simp only [ActionKey.split.injEq] at hk
    obtain ⟨rfl, rfl, rfl⟩ := hk
    refine ⟨?_, rfl, hex, ratio, hratio, rfl⟩
    cases hkind : e.kind with
    | cashDividend => exact absurd hkind hdiv
    | unsupported => exact absurd hkind huns
    | _ => rfl

theorem AppendedBy.trailOk_split {ev : CorporateActionEvent} {st : TrailStatus} {r : TrailRow}
    (hr : AppendedBy pid ev st r) (hc : ev.Classified) (hk : ev.kind.isSplit = true) :
    ∃ sym ex, r.actionKey = .split sym ex r.ratio.1 ∧ ev.exDate = some ex := by
  obtain ⟨ex, ratio, hex, hratio, hkey⟩ := hc.of_split hk
  refine ⟨ev.symbol, ex, ?_, hex⟩
  rw [hr.actionKey, hkey, hr.ratio, hratio]
  rfl

/-- The rows of a cleared assessment: what was in the trail and no block, and one row of each action. -/
structure Applied (p : Position) (B : Date) (a : Assessed) (s s' : Store) : Prop where
  history : TrailHistory p B s'
  from_applicable : ∀ r ∈ s'.trail.rows, r.positionId = p.positionId → r.status = .applied →
    (r ∈ s.trail.rows) ∨ ∃ e ∈ a.applicable, r.actionKey = e.actionKey
  to_applied : ∀ e ∈ a.applicable, ∃ r ∈ s'.trail.rows, r.positionId = p.positionId ∧ r.status = .applied ∧
    r.actionKey = e.actionKey

theorem applyAssessed_applied {res : CASourceResult} {stop : Date} {a : Assessed} (h : TrailHistory p B s)
    (ha : AssessedFrom p B stop res a) (hcls : ∀ e ∈ res.events, e.Classified) :
    Applied p B a s (applyAssessed p a s) := by
  have hsplit : ∀ e ∈ a.splits, e.Classified ∧ e.kind.isSplit = true := fun e he =>
    ⟨hcls e ((ha.splits e).1 he).1, ((ha.splits e).1 he).2.1⟩
  -- the four writes, one after the other
  let s1 := s.clearBlockedActionRows p.positionId
  let s2 := applyActions p.positionId .reflectedInEntryBasis s1 a.reflected
  let s3 := applyActions p.positionId .applied s2 a.applicable
  have hpos1 : s1.positions = s.positions := rfl
  have hpos2 : s2.positions = s.positions := positions_applyActions _ _
  have hpos3 : s3.positions = s.positions := (positions_applyActions _ _).trans hpos2
  have hclear : ∀ r ∈ s1.trail.rows, r ∈ s.trail.rows ∧ (r.positionId = p.positionId → r.status.isBlocked = false) := by
    intro r hr
    obtain ⟨hr, hb⟩ := List.mem_filter.1 hr
    refine ⟨hr, fun hid => ?_⟩
    simpa [hid] using hb
  have hrefl : ∀ r, (∃ e ∈ a.reflected, AppendedBy p.positionId e .reflectedInEntryBasis r) → TrailOk B r := by
    rintro r ⟨e, he, hr⟩
    obtain ⟨hes, hlt⟩ := (ha.reflected e).1 he
    obtain ⟨sym, ex, hkey, hex⟩ := hr.trailOk_split (hsplit e hes).1 (hsplit e hes).2
    rw [hex] at hlt
    simp only [TrailOk, hr.status]
    exact ⟨sym, ex, _, hkey, by simpa using hlt⟩
  have happ : ∀ r, (∃ e ∈ a.applicable, AppendedBy p.positionId e .applied r) → TrailOk B r := by
    rintro r ⟨e, he, hr⟩
    obtain ⟨hes, hlt⟩ := (ha.applicable e).1 he
    obtain ⟨sym, ex, hkey, hex⟩ := hr.trailOk_split (hsplit e hes).1 (hsplit e hes).2
    rw [hex] at hlt
    simp only [TrailOk, hr.status]
    exact ⟨sym, ex, hkey, by simpa using hlt⟩
  have hdiv : ∀ r, (∃ e ∈ a.dividends.filter fun e => e.exDate.any (p.entrySession < ·),
      AppendedBy p.positionId e .dividendObserved r) → TrailOk B r := by
    rintro r ⟨e, he, hr⟩
    obtain ⟨hres, hkind⟩ := ha.dividends e (List.mem_filter.1 he).1
    have hc := hcls e hres
    unfold CorporateActionEvent.Classified at hc
    rw [hkind] at hc
    obtain ⟨ex, rate, -, -, hkey⟩ := hc
    simp only [TrailOk, hr.status]
    exact ⟨e.symbol, ex, rate.1, hr.actionKey.trans hkey⟩
  have hok2 : ∀ r ∈ s2.trail.rows, r.positionId = p.positionId → TrailOk B r ∧ r.status.isBlocked = false := by
    intro r hr hid
    rcases mem_applyActions hr with hr | hr
    · exact ⟨h.rows r (hclear r hr).1 hid, (hclear r hr).2 hid⟩
    · obtain ⟨e, -, hrow⟩ := id hr
      exact ⟨hrefl r hr, by rw [hrow.status]; rfl⟩
  have hok3 : ∀ r ∈ s3.trail.rows, r.positionId = p.positionId → TrailOk B r ∧ r.status.isBlocked = false := by
    intro r hr hid
    rcases mem_applyActions hr with hr | hr
    · exact hok2 r hr hid
    · obtain ⟨e, -, hrow⟩ := id hr
      exact ⟨happ r hr, by rw [hrow.status]; rfl⟩
  refine ⟨⟨?_, fun r hr hid => ?_⟩, fun r hr hid hst => ?_, fun e he => ?_⟩
  · show p ∈ (applyActions p.positionId .dividendObserved s3 _).positions.rows
    rw [positions_applyActions, hpos3]
    exact h.mem
  · rcases mem_applyActions hr with hr | hr
    · exact (hok3 r hr hid).1
    · exact hdiv r hr
  · rcases mem_applyActions hr with hr | ⟨e, -, hrow⟩
    · rcases mem_applyActions hr with hr | ⟨e, he, hrow⟩
      · rcases mem_applyActions hr with hr | ⟨e, -, hrow⟩
        · exact Or.inl (hclear r hr).1
        · rw [hrow.status] at hst
          cases hst
      · exact Or.inr ⟨e, he, hrow.actionKey⟩
    · rw [hrow.status] at hst
      cases hst
  · have hp2 : s2.positionById p.positionId = some p := by
      rw [Store.positionById, hpos2]
      exact h.positionById
    have happlied : ∃ r ∈ s3.trail.rows, r.positionId = p.positionId ∧ r.actionKey = e.actionKey :=
      exists_applyActions hp2 e he
    obtain ⟨r, hr, hid, hkey⟩ := happlied
    refine ⟨r, mem_applyActions_of_mem hr, hid, ?_, hkey⟩
    -- a row with this key is neither reflected, nor a dividend, nor a block
    obtain ⟨hes, hgt⟩ := (ha.applicable e).1 he
    obtain ⟨ex, ratio, hex, -, hek⟩ := (hsplit e hes).1.of_split (hsplit e hes).2
    obtain ⟨hok, hnb⟩ := hok3 r hr hid
    have hgt : B < ex := by simpa [hex] using hgt
    have hrk : r.actionKey = .split e.symbol ex ratio.1 := hkey.trans hek
    unfold TrailOk at hok
    split at hok
    · rename_i hst; exact hst
    · obtain ⟨sym, ex', q, hk, hlt⟩ := hok
      rw [hrk] at hk
      simp only [ActionKey.split.injEq] at hk
      rw [hk.2.1] at hgt
      exact absurd hlt (Nat.not_lt.2 (Nat.le_of_lt hgt))
    · obtain ⟨sym, ex', q, hk⟩ := hok
      rw [hrk] at hk
      cases hk
    · rename_i c hst
      rw [hst] at hnb
      cases hnb

end TalonX.V2
