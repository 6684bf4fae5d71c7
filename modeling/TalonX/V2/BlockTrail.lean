import TalonX.V2.SplitNeutrality

/-!
# What a block leaves in the trail

A verdict that blocks is persisted as a row under the key of what it blocks on. The row is inserted where none has that
key, and an earlier sweep may have written one: an observed dividend, or a split that was applied or is reflected.

- `Sight`: what one assessment sees; `BlocksOn`: on which key it blocks;
- `blocksOn_of_assess`, `assess_of_blocksOn`: the stages of the assessment block on that key and on no other;
- `block_leaves_row`: exactly when the trail holds a block afterwards.
-/

set_option autoImplicit false

namespace TalonX.V2

open Transact

/-! ## What an assessment sees -/

structure Sight where
  row : Position
  res : CASourceResult
  trail : List TrailRow
  asOf : Date
  fill : Option ExitFill

namespace Sight

variable (v : Sight)

/-- The basis of the entry price. -/
def basis : Option Date := v.row.entryProvenance.bind Provenance.basisAsOf

def inside (exDate : Option Date) : Bool := inWindow v.row.entrySession (assessStop v.asOf v.fill) exDate

def conflicts : List Conflict := v.res.conflicts.filter fun c => v.inside c.exDate

def window : List CorporateActionEvent := v.res.events.filter fun e => v.inside e.exDate

/-- Unsupported and undated events; a dividend after the exit fill does not matter. -/
def unsupported : List CorporateActionEvent :=
  v.window.filter fun e => (e.kind = .unsupported || e.exDate.isNone) &&
    !(v.fill.any fun x => e.providerType = "cash_dividends" && e.exDate.any (x.session < ·))

def splits : List CorporateActionEvent := v.window.filter (·.kind.isSplit)

/-- The dividends that a settlement at the exit fill is entitled to. -/
def entitled (x : ExitFill) : List CorporateActionEvent :=
  (v.window.filter (·.kind = .cashDividend)).filter fun e =>
    e.exDate.any fun ex => v.row.entrySession < ex && ex ≤ x.session

/-- The stages up to the verdict: the dividends to accrue, or what refuses. -/
def assess : Except Blocked (List CorporateActionEvent) :=
  match assessEvidence v.row v.res v.asOf v.fill with
  | .error b => .error b
  | .ok a => assessTrail v.row v.trail a v.fill

end Sight

/-- The entry price does not tell on which side of the split it stands. -/
def unproven (basis : Option Date) (e : CorporateActionEvent) : Bool :=
  match basis with
  | none => true
  | some b => e.exDate = some b

/-- The split is behind the exit fill. -/
def behindFill (x : ExitFill) (e : CorporateActionEvent) : Bool := e.exDate.any (x.session < ·)

/-! ## What it blocks on -/

/-- There is evidence, without a conflict or an unsupported event in the window. -/
structure Sight.Supported (v : Sight) : Prop where
  ok : v.res.ok = true
  agreed : v.conflicts = []
  supported : v.unsupported = []

/-- Every split is on one side of the entry basis, and what was applied is reported. -/
structure Sight.Accounted (v : Sight) : Prop extends v.Supported where
  proven : v.splits.find? (unproven v.basis) = none
  reported : ∀ r ∈ v.trail, r.status = .applied → r.actionKey ∈ v.splits.map CorporateActionEvent.actionKey

/-- Every split behind the exit fill is in the exit price. -/
structure Sight.Settling (v : Sight) (x : ExitFill) : Prop extends v.Accounted where
  fill : v.fill = some x
  rebased : ∀ e ∈ v.splits, ∀ ex, e.exDate = some ex → x.session < ex → ∃ b, x.basisAsOf = some b ∧ ex < b

/-- Both prices are without a dividend adjustment. -/
def Sight.Unadjusted (v : Sight) (x : ExitFill) : Prop :=
  ∀ st ∈ [v.row.entryProvenance.bind Provenance.adjustmentState, x.adjustmentState],
    ∃ t ∈ dividendSafeBases, st = some t

/-- The key of what is blocked on: the first event of the first stage that refuses. -/
inductive BlocksOn (v : Sight) : ActionKey → Prop
  | conflict {c : Conflict} : v.res.ok = true → v.conflicts.head? = some c → BlocksOn v c.key
  | unsupported {e : CorporateActionEvent} : v.res.ok = true → v.conflicts = [] → v.unsupported.head? = some e →
      BlocksOn v e.actionKey
  | entryBasis {e : CorporateActionEvent} : v.Supported → v.splits.find? (unproven v.basis) = some e →
      BlocksOn v e.actionKey
  | disappeared {r : TrailRow} : v.Supported → v.splits.find? (unproven v.basis) = none → r ∈ v.trail →
      r.status = .applied → r.actionKey ∉ v.splits.map CorporateActionEvent.actionKey →
        BlocksOn v (.conflict v.row.symbol none .appliedNotReported)
  | exitBasis {x : ExitFill} {e : CorporateActionEvent} : v.Accounted → v.fill = some x → x.basisAsOf = none →
      v.splits.find? (behindFill x) = some e → BlocksOn v e.actionKey
  | dividendBasis {x : ExitFill} {d : CorporateActionEvent} : v.Settling x → (v.entitled x).head? = some d →
      ¬ v.Unadjusted x → BlocksOn v d.actionKey
  | dividendSplitSameDay {x : ExitFill} {d : CorporateActionEvent} : v.Settling x → v.Unadjusted x →
      (v.entitled x).find? (fun e => v.splits.any (·.exDate = e.exDate)) = some d → BlocksOn v d.actionKey

/-! ## The stages -/

theorem classifySplits_of_unproven {basis : Option Date} {es : List CorporateActionEvent} {e : CorporateActionEvent}
    (h : es.find? (unproven basis) = some e) :
    ∃ code, classifySplits basis es = .error ⟨.block, code, some e.actionKey⟩ := by
  induction es with
  | nil => cases h
  | cons d es ih =>
    rw [List.find?_cons] at h
    cases basis with
    | none =>
      simp only [unproven, Option.some.injEq] at h
      exact ⟨.basisUnknown, by rw [← h]; rfl⟩
    | some b =>
      cases hex : d.exDate with
      | none =>
        simp only [unproven, hex, reduceCtorEq, decide_false] at h
        obtain ⟨code, hcode⟩ := ih h
        exact ⟨code, by simp [classifySplits, hex, hcode]⟩
      | some ex =>
        rcases lt_trichotomy ex b with hlt | rfl | hgt
        · simp only [unproven, hex, Option.some.injEq, hlt.ne, decide_false] at h
          obtain ⟨code, hcode⟩ := ih h
          exact ⟨code, by simp [classifySplits, hex, hlt, hcode, Except.map]⟩
        · simp only [unproven, hex, decide_true, Option.some.injEq] at h
          obtain rfl := h
          exact ⟨.basisAmbiguous, by simp [classifySplits, hex]⟩
        · simp only [unproven, hex, Option.some.injEq, hgt.ne', decide_false] at h
          obtain ⟨code, hcode⟩ := ih h
          exact ⟨code, by simp [classifySplits, hex, hgt.ne', hgt.not_gt, hcode, Except.map]⟩

theorem classifySplits_of_proven {basis : Option Date} {es : List CorporateActionEvent}
    (h : es.find? (unproven basis) = none) : ∃ rs as, classifySplits basis es = .ok (rs, as) := by
  induction es with
  | nil => exact ⟨[], [], rfl⟩
  | cons d es ih =>
    rw [List.find?_cons] at h
    split at h
    · cases h
    rename_i hd
    obtain ⟨rs, as, hok⟩ := ih h
    cases basis with
    | none => cases hd
    | some b =>
      cases hex : d.exDate with
      | none => exact ⟨rs, as, by simp [classifySplits, hex, hok]⟩
      | some ex =>
        have hne : ex ≠ b := by simpa [unproven, hex] using hd
        rcases lt_or_gt_of_ne hne with hlt | hgt
        · exact ⟨d :: rs, as, by simp [classifySplits, hex, hlt, hok, Except.map]⟩
        · exact ⟨rs, d :: as, by simp [classifySplits, hex, hne, hgt.not_gt, hok, Except.map]⟩

theorem assessExitSplits_of_unknown {x : ExitFill} {es : List CorporateActionEvent} {e : CorporateActionEvent}
    (hx : x.basisAsOf = none) (h : es.find? (behindFill x) = some e) :
    assessExitSplits x es = .error ⟨.block, .basisUnknown, some e.actionKey⟩ := by
  induction es with
  | nil => cases h
  | cons d es ih =>
    rw [List.find?_cons] at h
    cases hex : d.exDate with
    | none =>
      simp only [behindFill, hex, Option.any_none] at h
      simpa [assessExitSplits, hex] using ih h
    | some ex =>
      by_cases hlt : x.session < ex
      · simp only [behindFill, hex, Option.any_some, hlt, decide_true, Option.some.injEq] at h
        obtain rfl := h
        simp [assessExitSplits, hex, hlt.not_ge, hx]
      · simp only [behindFill, hex, Option.any_some, hlt, decide_false] at h
        simpa [assessExitSplits, hex, not_lt.1 hlt] using ih h

theorem assessExitSplits_of_rebased {x : ExitFill} {es : List CorporateActionEvent}
    (h : ∀ e ∈ es, ∀ ex, e.exDate = some ex → x.session < ex → ∃ b, x.basisAsOf = some b ∧ ex < b) :
    assessExitSplits x es = .ok () := by
  induction es with
  | nil => rfl
  | cons d es ih =>
    obtain ⟨hd, hes⟩ := List.forall_mem_cons.1 h
    cases hex : d.exDate with
    | none => simpa [assessExitSplits, hex] using ih hes
    | some ex =>
      by_cases hlt : x.session < ex
      · obtain ⟨b, hb, hexb⟩ := hd ex hex hlt
        simpa [assessExitSplits, hex, hlt.not_ge, hb, hexb.not_ge] using ih hes
      · simpa [assessExitSplits, hex, not_lt.1 hlt] using ih hes

theorem assessExitSplits_cases (x : ExitFill) (es : List CorporateActionEvent) :
    (∀ e ∈ es, ∀ ex, e.exDate = some ex → x.session < ex → ∃ b, x.basisAsOf = some b ∧ ex < b) ∨
      (∃ e, x.basisAsOf = none ∧ es.find? (behindFill x) = some e) ∨
        assessExitSplits x es = .error ⟨.hold, .exitBasisStale, none⟩ := by
  induction es with
  | nil => exact .inl (by simp)
  | cons d es ih =>
    cases hex : d.exDate with
    | none =>
      rcases ih with h | ⟨e, hx, hf⟩ | h
      · refine .inl (List.forall_mem_cons.2 ⟨?_, h⟩)
        intro ex hex'
        rw [hex] at hex'
        cases hex'
      · exact .inr (.inl ⟨e, hx, by simpa [behindFill, hex] using hf⟩)
      · exact .inr (.inr (by simpa [assessExitSplits, hex] using h))
    | some ex =>
      by_cases hlt : x.session < ex
      · cases hb : x.basisAsOf with
        | none => exact .inr (.inl ⟨d, rfl, by simp [behindFill, hex, hlt]⟩)
        | some b =>
          by_cases hexb : ex < b
          · rcases ih with h | ⟨e, hx, -⟩ | h
            · refine .inl (List.forall_mem_cons.2 ⟨?_, by simpa [hb] using h⟩)
              intro ex' hex' _
              rw [hex] at hex'
              obtain rfl := Option.some.inj hex'
              exact ⟨b, rfl, hexb⟩
            · rw [hb] at hx
              cases hx
            · exact .inr (.inr (by simpa [assessExitSplits, hex, hlt.not_ge, hb, hexb.not_ge] using h))
          · exact .inr (.inr (by simp [assessExitSplits, hex, hlt.not_ge, hb, not_lt.1 hexb]))
      · rcases ih with h | ⟨e, hx, hf⟩ | h
        · refine .inl (List.forall_mem_cons.2 ⟨?_, h⟩)
          intro ex' hex' hlt'
          rw [hex] at hex'
          obtain rfl := Option.some.inj hex'
          exact absurd hlt' hlt
        · exact .inr (.inl ⟨e, hx, by simpa [behindFill, hex, hlt] using hf⟩)
        · exact .inr (.inr (by simpa [assessExitSplits, hex, not_lt.1 hlt] using h))

/-! ## The verdict -/

section Verdict

variable {v : Sight}

theorem Sight.Supported.assessEvidence (h : v.Supported) : assessEvidence v.row v.res v.asOf v.fill =
    match classifySplits v.basis v.splits with
    | .error b => .error b
    | .ok (rs, as) => .ok ⟨v.splits, v.window.filter (·.kind = .cashDividend), rs, as⟩ := by
  have hagreed := h.agreed
  have hsupported := h.supported
  unfold Sight.conflicts Sight.inside at hagreed
  unfold Sight.unsupported Sight.window Sight.inside at hsupported
  unfold V2.assessEvidence
  simp only [h.ok, Bool.not_true, Bool.false_eq_true, if_false, hagreed, hsupported]
  rfl

/-- With everything accounted for, only the exit side is left. -/
theorem Sight.Accounted.assess (h : v.Accounted) : v.assess =
    match v.fill with
    | none => .ok []
    | some x =>
      match assessExitSplits x v.splits with
      | .error b => .error b
      | .ok _ => assessDividends v.row x ⟨v.splits, v.window.filter (·.kind = .cashDividend), [], []⟩ := by
  obtain ⟨rs, as, hok⟩ := classifySplits_of_proven h.proven
  have hreported : ¬ (v.trail.any fun r =>
      r.status = .applied && r.actionKey ∉ v.splits.map CorporateActionEvent.actionKey) = true := by
    intro hany
    obtain ⟨r, hr, hgone⟩ := List.any_eq_true.1 hany
    rw [Bool.and_eq_true, decide_eq_true_eq, decide_eq_true_eq] at hgone
    exact hgone.2 (h.reported r hr hgone.1)
  unfold Sight.assess
  rw [h.toSupported.assessEvidence, hok]
  dsimp only
  unfold assessTrail
  rw [if_neg hreported]
  rfl

theorem Sight.Settling.assess {x : ExitFill} (h : v.Settling x) :
    v.assess = assessDividends v.row x ⟨v.splits, v.window.filter (·.kind = .cashDividend), [], []⟩ := by
  rw [h.toAccounted.assess, h.fill]
  dsimp only
  rw [assessExitSplits_of_rebased h.rebased]

/-- The test of the two adjustment states. -/
theorem Sight.unadjusted_iff {x : ExitFill} : v.Unadjusted x ↔
    ¬ ([v.row.entryProvenance.bind Provenance.adjustmentState, x.adjustmentState].any fun st =>
      !st.any (· ∈ dividendSafeBases)) = true := by
  have hsafe : ∀ st : Option String,
      (∃ t ∈ dividendSafeBases, st = some t) ↔ st.any (· ∈ dividendSafeBases) = true := by
    intro st
    cases st with
    | none => simp
    | some t => simp
  unfold Sight.Unadjusted
  simp only [hsafe, List.any_eq_true, not_exists, not_and, Bool.not_eq_true', Bool.not_eq_false]

theorem assess_of_blocksOn {key : ActionKey} (h : BlocksOn v key) :
    ∃ code, v.assess = .error ⟨.block, code, some key⟩ := by
  cases h with
  | conflict hok hc =>
    obtain ⟨cs, hcs⟩ := List.head?_eq_some_iff.1 hc
    unfold Sight.conflicts Sight.inside at hcs
    refine ⟨.conflict, ?_⟩
    unfold Sight.assess assessEvidence
    simp [hok, hcs]
  | @unsupported e hok hc he =>
    obtain ⟨es, hes⟩ := List.head?_eq_some_iff.1 he
    unfold Sight.conflicts Sight.inside at hc
    unfold Sight.unsupported Sight.window Sight.inside at hes
    refine ⟨if e.malformed then .malformed else .unsupported, ?_⟩
    unfold Sight.assess assessEvidence
    simp only [hok, Bool.not_true, Bool.false_eq_true, if_false, hc, hes]
  | entryBasis hs he =>
    obtain ⟨code, hcode⟩ := classifySplits_of_unproven he
    refine ⟨code, ?_⟩
    unfold Sight.assess
    rw [hs.assessEvidence, hcode]
  | disappeared hs hproven hr hst hgone =>
    obtain ⟨rs, as, hok⟩ := classifySplits_of_proven hproven
    refine ⟨.conflict, ?_⟩
    unfold Sight.assess
    rw [hs.assessEvidence, hok]
    dsimp only
    unfold assessTrail
    rw [if_pos]
    refine List.any_eq_true.2 ⟨_, hr, ?_⟩
    rw [Bool.and_eq_true, decide_eq_true_eq, decide_eq_true_eq]
    exact ⟨hst, hgone⟩
  | exitBasis ha hx hb he =>
    refine ⟨.basisUnknown, ?_⟩
    rw [ha.assess, hx]
    dsimp only
    rw [assessExitSplits_of_unknown hb he]
  | @dividendBasis x d hs hd hunsafe =>
    obtain ⟨ds, hds⟩ := List.head?_eq_some_iff.1 hd
    unfold Sight.entitled at hds
    refine ⟨.dividendBasis, ?_⟩
    rw [hs.assess]
    unfold assessDividends
    dsimp only
    rw [hds]
    dsimp only
    rw [if_pos (not_not.1 (mt Sight.unadjusted_iff.2 hunsafe))]
  | @dividendSplitSameDay x d hs hsafe hd =>
    refine ⟨.dividendSplitSameDay, ?_⟩
    rw [hs.assess]
    unfold assessDividends
    dsimp only
    unfold Sight.entitled at hd
    split
    · rename_i hnil
      rw [hnil] at hd
      cases hd
    · rename_i d' ds hds
      rw [if_neg (Sight.unadjusted_iff.1 hsafe), ← hds, hd]

/-- An assessment holds, blocks on a key, or clears. -/
theorem assess_cases (v : Sight) : (∃ b, v.assess = .error b ∧ b.status = .hold ∧ b.key = none) ∨
    (∃ key, BlocksOn v key) ∨ ∃ ds, v.assess = .ok ds := by
  by_cases hok : v.res.ok = true
  case neg =>
    refine .inl ⟨⟨.hold, .evidenceUnavailable, none⟩, ?_, rfl, rfl⟩
    unfold Sight.assess assessEvidence
    simp [hok]
  cases hc : v.conflicts with
  | cons c cs => exact .inr (.inl ⟨_, .conflict hok (by rw [hc]; rfl)⟩)
  | nil =>
  cases hu : v.unsupported with
  | cons e es => exact .inr (.inl ⟨_, .unsupported hok hc (by rw [hu]; rfl)⟩)
  | nil =>
  have hs : v.Supported := ⟨hok, hc, hu⟩
  cases hp : v.splits.find? (unproven v.basis) with
  | some e => exact .inr (.inl ⟨_, .entryBasis hs hp⟩)
  | none =>
  by_cases hr : ∀ r ∈ v.trail, r.status = .applied → r.actionKey ∈ v.splits.map CorporateActionEvent.actionKey
  case neg =>
    push Not at hr
    obtain ⟨r, hr, hst, hgone⟩ := hr
    exact .inr (.inl ⟨_, .disappeared hs hp hr hst hgone⟩)
  have ha : v.Accounted := ⟨hs, hp, hr⟩
  cases hx : v.fill with
  | none =>
    refine .inr (.inr ⟨[], ?_⟩)
    rw [ha.assess, hx]
  | some x =>
  rcases assessExitSplits_cases x v.splits with hrebased | ⟨e, hb, he⟩ | hstale
  · have hset : v.Settling x := ⟨ha, hx, hrebased⟩
    by_cases hsafe : v.Unadjusted x
    · cases hd : (v.entitled x).find? fun e => v.splits.any (·.exDate = e.exDate) with
      | some d => exact .inr (.inl ⟨_, .dividendSplitSameDay hset hsafe hd⟩)
      | none =>
        refine .inr (.inr ⟨v.entitled x, ?_⟩)
        rw [hset.assess]
        unfold assessDividends
        dsimp only
        unfold Sight.entitled at hd ⊢
        split
        · rename_i hnil
          rw [hnil]
        · rename_i d ds hds
          rw [if_neg (Sight.unadjusted_iff.1 hsafe), ← hds, hd]
    · cases hd : v.entitled x with
      | cons d ds => exact .inr (.inl ⟨_, .dividendBasis hset (by rw [hd]; rfl) hsafe⟩)
      | nil =>
        refine .inr (.inr ⟨[], ?_⟩)
        rw [hset.assess]
        unfold assessDividends
        dsimp only
        unfold Sight.entitled at hd
        rw [hd]
  · exact .inr (.inl ⟨_, .exitBasis ha hx hb he⟩)
  · refine .inl ⟨⟨.hold, .exitBasisStale, none⟩, ?_, rfl, rfl⟩
    rw [ha.assess, hx]
    dsimp only
    rw [hstale]

theorem blocksOn_of_assess {b : Blocked} (h : v.assess = .error b) (hb : b.status = .block) :
    ∃ key, b.key = some key ∧ BlocksOn v key := by
  rcases assess_cases v with ⟨b', hb', hold, -⟩ | ⟨key, hkey⟩ | ⟨ds, hds⟩
  · rw [h] at hb'
    obtain rfl := Except.error.inj hb'
    rw [hb] at hold
    cases hold
  · obtain ⟨code, hcode⟩ := assess_of_blocksOn hkey
    rw [h] at hcode
    obtain rfl := Except.error.inj hcode
    exact ⟨key, rfl, hkey⟩
  · rw [h] at hds
    cases hds

/-- What holds is not written down. -/
theorem key_of_hold {b : Blocked} (h : v.assess = .error b) (hb : b.status = .hold) : b.key = none := by
  rcases assess_cases v with ⟨b', hb', -, hkey⟩ | ⟨key, hkey⟩ | ⟨ds, hds⟩
  · rw [h] at hb'
    obtain rfl := Except.error.inj hb'
    exact hkey
  · obtain ⟨code, hcode⟩ := assess_of_blocksOn hkey
    rw [h] at hcode
    obtain rfl := Except.error.inj hcode
    cases hb
  · rw [h] at hds
    cases hds

/-- There is one key to block on. -/
theorem BlocksOn.unique {key key' : ActionKey} (h : BlocksOn v key) (h' : BlocksOn v key') : key = key' := by
  obtain ⟨code, hcode⟩ := assess_of_blocksOn h
  obtain ⟨code', hcode'⟩ := assess_of_blocksOn h'
  rw [hcode] at hcode'
  have hblocked := Except.error.inj hcode'
  exact Option.some.inj (congrArg Blocked.key hblocked)

end Verdict

/-! ## The row of the block -/

theorem exists_blocked_iff {s : Store} {pid : ℕ} {key : ActionKey} {code : VerdictCode} :
    (∃ r ∈ ((s.clearBlockedActionRows pid).recordBlockedAction pid key code).trail.rows,
      r.positionId = pid ∧ r.status.isBlocked = true) ↔
        ∀ r ∈ s.trail.rows, r.positionId = pid → r.actionKey = key → r.status.isBlocked = true := by
  have hcleared : ∀ r ∈ (s.clearBlockedActionRows pid).trail.rows,
      r.positionId = pid → r.status.isBlocked = false := by
    intro r hr hid
    obtain ⟨-, hkept⟩ := List.mem_filter.1 hr
    simpa [hid] using hkept
  constructor
  · rintro ⟨r, hr, hid, hb⟩ q hq hqid hqkey
    by_contra hnot
    -- the row of the sweep survives the clearing, and the insert is ignored
    have hqin : q ∈ (s.clearBlockedActionRows pid).trail.rows :=
      List.mem_filter.2 ⟨hq, by simp [hnot]⟩
    rcases Table.mem_insertOrIgnore hr with hr | rfl
    · rw [hcleared r hr hid] at hb
      cases hb
    · have hins := Table.eq_of_key (((s.clearBlockedActionRows pid).recordBlockedAction pid key code).trail) hr
        (Table.mem_insertOrIgnore_of_mem hqin) (by rw [TrailRow.key, TrailRow.key, hqid, hqkey])
      rw [← hins] at hnot
      exact hnot rfl
  · intro hfree
    obtain ⟨r, hr, hkey⟩ := (s.clearBlockedActionRows pid).trail.exists_insertOrIgnore
      { positionId := pid, actionKey := key, kind := none, exDate := none, ratio := ⟨1, one_pos⟩,
        status := .blocked code, sharesBefore := 0, sharesAfter := 0, costBasis := 0 }
    refine ⟨r, hr, congrArg Prod.fst hkey, ?_⟩
    rcases Table.mem_insertOrIgnore hr with hr | rfl
    · have hblocked := hfree r (List.mem_filter.1 hr).1 (congrArg Prod.fst hkey) (congrArg Prod.snd hkey)
      rw [hcleared r hr (congrArg Prod.fst hkey)] at hblocked
      cases hblocked
    · rfl

/-- A call that finds a block changes nothing. -/
theorem closePosition_of_blocked {s : Store} {row : Position} {r : TrailRow} (cal : Calendar) (cfg : V2Config)
    (feeFn : FeeFn) (position : Position) (px : ℚ) (es : Date) (provenance : Option Provenance)
    (dividends : List CorporateActionEvent) (hrow : s.positionById position.positionId = some row)
    (hr : r ∈ s.trail.rows) (hid : r.positionId = position.positionId) (hb : r.status.isBlocked = true) :
    ∃ o, closePosition cal cfg feeFn s position px es provenance dividends = some (o, s) ∧ o.settled = false ∧
      o.blockedReason.isSome = true := by
  obtain ⟨-, hrowid⟩ := SeqTable.byId_eq_some.1 hrow
  have hmem : r ∈ s.blockedActionRows row.positionId := by
    rw [hrowid]
    exact List.mem_filter.2 ⟨List.mem_filter.2 ⟨hr, by simpa using hid⟩, hb⟩
  unfold closePosition
  rw [hrow]
  dsimp only
  cases hrows : s.blockedActionRows row.positionId with
  | nil =>
    rw [hrows] at hmem
    cases hmem
  | cons b bs => exact ⟨_, rfl, rfl, rfl⟩

/-! ## A run of the assessment -/

/-- What an assessment of a position sees in the ledger. -/
def Sight.of (evidence : Evidence) (row : Position) (asOf : Date) (fill : Option ExitFill) (s : Store) : Sight :=
  ⟨row, evidence.fetch row.symbol row.entrySession (assessStop asOf fill), s.positionActionTrail row.positionId, asOf,
    fill⟩

/-- Calls may raise and the process may crash; nothing is asked of that. -/
def anyContract : Contract Call Store where
  commit := fun _ _ _ => True
  mayFault := fun _ _ => True
  atCrash := fun _ => True

/-- The ledger after a verdict that blocks. -/
def BlockedRun (evidence : Evidence) (pid : ℕ) (asOf : Date) (fill : Option ExitFill) (s s' : Store) : Prop :=
  ∃ row key code, s.positionById pid = some row ∧ BlocksOn (.of evidence row asOf fill s) key ∧
    s' = (s.clearBlockedActionRows pid).recordBlockedAction pid key code

theorem wp_persistBlock_block {b : Blocked} {pid : ℕ} {s : Store} {Q : Store → Prop}
    (hQ : b.status = .block → ∃ key, b.key = some key ∧
      Q ((s.clearBlockedActionRows pid).recordBlockedAction pid key b.code)) :
    wp anyContract (persistBlock pid b) (fun v t => v.status = .block → Q t) (fun _ => True) s := by
  unfold persistBlock
  cases hkey : b.key with
  | none =>
    intro hv
    obtain ⟨key, hsome, -⟩ := hQ hv
    rw [hkey] at hsome
    cases hsome
  | some key =>
    refine wp_bind (wp_write trivial ?_ fun _ => ⟨trivial, trivial⟩)
    intro hv
    obtain ⟨key', hsome, hq⟩ := hQ hv
    rw [hkey] at hsome
    obtain rfl := Option.some.inj hsome
    exact hq

theorem blockedRun_of_exec {evidence : Evidence} {pid : ℕ} {asOf : Date} {fill : Option ExitFill} {s s' : Store}
    {es : List (Event Call Store)} {verdict : Verdict}
    (h : Exec (assessPosition evidence pid asOf fill) s es s' (.done verdict))
    (hv : verdict.status = .block) : BlockedRun evidence pid asOf fill s s' := by
  have hwp : wp anyContract (assessPosition evidence pid asOf fill)
      (fun v t => v.status = .block → BlockedRun evidence pid asOf fill s t) (fun _ => True) s := by
    have hstay : anyContract.atCrash s ∧ True := ⟨trivial, trivial⟩
    refine wp_bind (wp_read trivial ?_ fun _ => hstay)
    cases hrow : s.positionById pid with
    | none => exact nofun
    | some row =>
      obtain ⟨-, hid⟩ := SeqTable.byId_eq_some.1 hrow
      dsimp only
      split
      · exact nofun
      have hblock : ∀ b, (Sight.of evidence row asOf fill s).assess = .error b → b.status = .block →
          ∃ key, b.key = some key ∧ BlockedRun evidence pid asOf fill s
            ((s.clearBlockedActionRows row.positionId).recordBlockedAction row.positionId key b.code) := by
        intro b hb hblocks
        obtain ⟨key, hkey, hon⟩ := blocksOn_of_assess hb hblocks
        exact ⟨key, hkey, row, key, b.code, hrow, hon, by rw [hid]⟩
      refine wp_bind (wp_read trivial ?_ fun _ => hstay)
      split
      · rename_i b hb
        apply wp_persistBlock_block
        apply hblock b
        unfold Sight.assess Sight.of
        rw [hb]
      rename_i a ha
      refine wp_bind (wp_read trivial ?_ fun _ => hstay)
      split
      · rename_i b hb
        apply wp_persistBlock_block
        apply hblock b
        unfold Sight.assess Sight.of
        rw [ha]
        exact hb
      · refine wp_bind (wp_write trivial (wp_bind (wp_read trivial ?_ fun _ => ⟨trivial, trivial⟩)) fun _ => hstay)
        intro hv
        split at hv <;> cases hv
  have hallowed : ∀ e ∈ es, e.Allowed anyContract := fun e _ => ⟨fun _ => trivial, fun _ => trivial⟩
  exact (wp_sound h hwp hallowed).2 hv

/-- A merger inside the window. -/
def mergerListing : Evidence := fun _ _ _ =>
  [.listing "alpaca" [classifyAlpacaRecord "acme" "cash_mergers" "alpaca" { id := "m1", exDate := some 35 }]]

/-- A dividend inside the window. -/
def dividendListing : Evidence := fun _ _ _ => [.listing "alpaca"
  [classifyAlpacaRecord "acme" "cash_dividends" "alpaca" { id := "d1", exDate := some 35, rate := some (1 / 2) }]]

end TalonX.V2
