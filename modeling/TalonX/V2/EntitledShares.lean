import TalonX.V2.SplitNeutrality

/-!
# The shares a dividend is paid on

The recorded share count stands on the basis of the entry price. For an ex-date, the splits that the basis reflects are
undone when they come later, and the applied ones count when they come before; what is left is the same on any basis.

- `SplitHistory`: the rows of the splits in the trail, over any history of assessments;
- `foldlM_factor`, `prod_trailFactor`: `sharesAtDate` as a product over the distinct splits;
- `ServedOn`: the ledger of an entry price with a given basis;
- `entitled_shares_independent`: two bases, one share count.
-/

set_option autoImplicit false

namespace TalonX.V2

open Transact

/-- Symbol, ex-date and ratio of a split. -/
abbrev SplitContent := Symbol × Date × ℚ

variable {S : Finset SplitContent} {p : Position} {B d : Date} {s s' : Store}

/-! ## The rows of the splits -/

/-- The row of split `c`. -/
structure SplitRow (S : Finset SplitContent) (p : Position) (c : SplitContent) (r : TrailRow) : Prop where
  mem : c ∈ S
  held : p.entrySession < c.2.1
  key : r.actionKey = .split c.1 c.2.1 c.2.2
  kind : r.kind.elim false ActionKind.isSplit = true
  exDate : r.exDate = some c.2.1
  ratio : r.ratio.1 = c.2.2

/-- The row says that a split was applied, or that the entry basis reflects it. -/
def TrailRow.ofSplit (r : TrailRow) : Bool := r.status = .applied || r.status = .reflectedInEntryBasis

theorem TrailRow.ofSplit_iff {r : TrailRow} :
    r.ofSplit = true ↔ r.status = .applied ∨ r.status = .reflectedInEntryBasis := by
  simp [TrailRow.ofSplit]

structure SplitHistory (S : Finset SplitContent) (p : Position) (B : Date) (s : Store) : Prop
    extends TrailHistory p B s where
  splitRows : ∀ r ∈ s.trail.rows, r.positionId = p.positionId → r.ofSplit = true → ∃ c, SplitRow S p c r

theorem SplitRow.content_eq {c : SplitContent} {r : TrailRow} (h : SplitRow S p c r) : r.content = c := by
  simp [TrailRow.content, h.key]

/-- The side of the basis on which the split is. -/
theorem SplitHistory.side (h : SplitHistory S p B s) {r : TrailRow} (hr : r ∈ s.trail.rows)
    (hid : r.positionId = p.positionId) {c : SplitContent} (hc : SplitRow S p c r) :
    (r.status = .applied → B < c.2.1) ∧ (r.status = .reflectedInEntryBasis → c.2.1 < B) := by
  have hok := h.rows r hr hid
  constructor
  · intro hst
    simp only [TrailOk, hst, hc.key, ActionKey.split.injEq] at hok
    obtain ⟨_, ex, ⟨-, rfl, -⟩, hlt⟩ := hok
    exact hlt
  · intro hst
    simp only [TrailOk, hst, hc.key, ActionKey.split.injEq] at hok
    obtain ⟨_, ex, _, ⟨-, rfl, -⟩, hlt⟩ := hok
    exact hlt

/-- Rows that are new and say nothing about the position, or are a block, keep the history. -/
theorem SplitHistory.of_rows (h : SplitHistory S p B s) (hpos : s'.positions = s.positions)
    (hrows : ∀ r ∈ s'.trail.rows, r ∈ s.trail.rows ∨ r.positionId ≠ p.positionId ∨ r.status.isBlocked = true) :
    SplitHistory S p B s' := by
  refine ⟨h.toTrailHistory.of_rows hpos hrows, ?_⟩
  intro r hr hid hsplit
  rcases hrows r hr with hr | hne | hb
  · exact h.splitRows r hr hid hsplit
  · exact absurd hid hne
  · rcases TrailRow.ofSplit_iff.1 hsplit with hst | hst <;> rw [hst] at hb <;> cases hb

/-! ## What a cleared assessment writes -/

/-- The rows of the position after the transaction of a cleared assessment. -/
theorem mem_applyAssessed {a : Assessed} {r : TrailRow} (h : r ∈ (applyAssessed p a s).trail.rows) :
    (r ∈ s.trail.rows ∧ (r.positionId = p.positionId → r.status.isBlocked = false)) ∨
      (∃ e ∈ a.reflected, AppendedBy p.positionId e .reflectedInEntryBasis r) ∨
        (∃ e ∈ a.applicable, AppendedBy p.positionId e .applied r) ∨
          ∃ e ∈ a.dividends, AppendedBy p.positionId e .dividendObserved r := by
  rcases mem_applyActions h with h | ⟨e, he, hr⟩
  · rcases mem_applyActions h with h | hr
    · rcases mem_applyActions h with h | hr
      · obtain ⟨hmem, hkept⟩ := List.mem_filter.1 h
        refine .inl ⟨hmem, fun hid => ?_⟩
        simpa [hid] using hkept
      · exact .inr (.inl hr)
    · exact .inr (.inr (.inl hr))
  · exact .inr (.inr (.inr ⟨e, (List.mem_filter.1 he).1, hr⟩))

theorem not_blocked_applyAssessed {a : Assessed} {r : TrailRow} (h : r ∈ (applyAssessed p a s).trail.rows)
    (hid : r.positionId = p.positionId) : r.status.isBlocked = false := by
  rcases mem_applyAssessed h with ⟨-, hkept⟩ | ⟨e, -, hr⟩ | ⟨e, -, hr⟩ | ⟨e, -, hr⟩
  · exact hkept hid
  all_goals rw [hr.status]; rfl

/-- The listings name no split of the symbol outside `S`. -/
def Evidence.Names (ev : Evidence) (symbol : Symbol) (S : Finset SplitContent) : Prop :=
  ∀ start stop, ∀ a ∈ ev symbol start stop, ∀ e ∈ a.events, ∀ c, e.splitContent = some c → c ∈ S

/-- Every split of `S` is listed when the window asked for contains its ex-date. -/
def Evidence.Covers (ev : Evidence) (symbol : Symbol) (S : Finset SplitContent) : Prop :=
  ∀ start stop, ∀ c ∈ S, start < c.2.1 → c.2.1 ≤ stop →
    ∃ a ∈ ev symbol start stop, ∃ e ∈ a.events, e.splitContent = some c

section Assessment

variable {i : AssessInput} {a : Assessed} {ds : List CorporateActionEvent}

/-- The evidence of one assessment of the position. -/
structure AssessedOn (S : Finset SplitContent) (p : Position) (B : Date) (i : AssessInput) (a : Assessed) : Prop where
  classified : i.evidence.Classified
  names : i.evidence.Names p.symbol S
  ok : (i.evidence.fetch p.symbol p.entrySession (assessStop i.asOf i.fill)).ok = true
  assessed : AssessedFrom p B (assessStop i.asOf i.fill)
    (i.evidence.fetch p.symbol p.entrySession (assessStop i.asOf i.fill)) a

theorem assessedOn (hcls : i.evidence.Classified) (hnames : i.evidence.Names p.symbol S)
    (hB : p.entryProvenance.bind Provenance.basisAsOf = some B)
    (ha : assessEvidence p (i.evidence.fetch p.symbol p.entrySession (assessStop i.asOf i.fill)) i.asOf i.fill =
      .ok a) : AssessedOn S p B i a :=
  ⟨hcls, hnames, (assessEvidence_ok hB ha).ok, assessEvidence_ok hB ha⟩

theorem AssessedOn.listed (h : AssessedOn S p B i a) {e : CorporateActionEvent}
    (he : e ∈ (i.evidence.fetch p.symbol p.entrySession (assessStop i.asOf i.fill)).events) :
    e.Classified ∧ ∀ c, e.splitContent = some c → c ∈ S := by
  obtain ⟨x, hx, hex⟩ := (Evidence.fetch_events h.ok).1 e he
  exact ⟨h.classified _ _ _ x hx e hex, h.names _ _ x hx e hex⟩

/-- The row that a split event appends is the row of that split. -/
theorem AssessedOn.splitRow (h : AssessedOn S p B i a) {e : CorporateActionEvent} (he : e ∈ a.splits)
    {st : TrailStatus} {r : TrailRow} (hr : AppendedBy p.positionId e st r) : ∃ c, SplitRow S p c r := by
  obtain ⟨hev, hk, hwin⟩ := (h.assessed.splits e).1 he
  obtain ⟨hcls, hin⟩ := h.listed hev
  obtain ⟨ex, ratio, hex, hratio, hkey⟩ := hcls.of_split hk
  have hcontent : e.splitContent = some (e.symbol, ex, ratio.1) := hcls.splitContent_eq_some.2 hkey
  simp only [hex, inWindow, Option.all_some, Bool.and_eq_true, decide_eq_true_eq] at hwin
  refine ⟨(e.symbol, ex, ratio.1), ?_⟩
  constructor
  case mem => exact hin _ hcontent
  case held => exact hwin.1
  case key => rw [hr.actionKey, hkey]
  case kind => rw [hr.kind]; exact hk
  case exDate => rw [hr.exDate, hex]
  case ratio => rw [hr.ratio, hratio]; rfl

theorem SplitHistory.of_applyAssessed (h : SplitHistory S p B s) (ha : AssessedOn S p B i a) :
    SplitHistory S p B (applyAssessed p a s) := by
  have hcls : ∀ e ∈ (i.evidence.fetch p.symbol p.entrySession (assessStop i.asOf i.fill)).events, e.Classified :=
    fun e he => (ha.listed he).1
  refine ⟨(applyAssessed_applied h.toTrailHistory ha.assessed hcls).history, ?_⟩
  intro r hr hid hsplit
  rcases mem_applyAssessed hr with ⟨hr, -⟩ | ⟨e, he, hrow⟩ | ⟨e, he, hrow⟩ | ⟨e, -, hrow⟩
  · exact h.splitRows r hr hid hsplit
  · exact ha.splitRow ((ha.assessed.reflected e).1 he).1 hrow
  · exact ha.splitRow ((ha.assessed.applicable e).1 he).1 hrow
  · rcases TrailRow.ofSplit_iff.1 hsplit with hst | hst <;> rw [hrow.status] at hst <;> cases hst

/-- Every split in the window that is not on the basis date has its row. -/
theorem SplitHistory.exists_row (h : SplitHistory S p B s) (ha : AssessedOn S p B i a)
    (hcovers : i.evidence.Covers p.symbol S) {c : SplitContent} (hc : c ∈ S) (hne : c.2.1 ≠ B)
    (hlt : p.entrySession < c.2.1) (hle : c.2.1 ≤ assessStop i.asOf i.fill) :
    ∃ r ∈ (applyAssessed p a s).trail.rows, r.positionId = p.positionId ∧ r.ofSplit = true ∧ SplitRow S p c r := by
  have hafter := h.of_applyAssessed ha
  obtain ⟨x, hx, e, hex, hcontent⟩ := hcovers p.entrySession _ c hc hlt hle
  have hkey := (ha.classified _ _ _ x hx e hex).splitContent_eq_some.1 hcontent
  obtain ⟨e', he', hkey'⟩ := (Evidence.fetch_events ha.ok).2 x hx e hex
  rw [hkey] at hkey'
  obtain ⟨hk, -, hexd, -⟩ := (ha.listed he').1.of_key hkey'
  have hsplit : e' ∈ a.splits := by
    apply (ha.assessed.splits e').2
    refine ⟨he', hk, ?_⟩
    simp only [hexd, inWindow, Option.all_some, Bool.and_eq_true, decide_eq_true_eq]
    exact ⟨hlt, hle⟩
  -- the row is there: from this assessment, or from an earlier one
  have hrow : ∃ r ∈ (applyAssessed p a s).trail.rows, r.positionId = p.positionId ∧
      r.actionKey = .split c.1 c.2.1 c.2.2 := by
    rcases lt_or_gt_of_ne hne with hbefore | hbehind
    · have hreflected : e' ∈ a.reflected := (ha.assessed.reflected e').2 ⟨hsplit, by simpa [hexd] using hbefore⟩
      have hp : (s.clearBlockedActionRows p.positionId).positionById p.positionId = some p :=
        h.toTrailHistory.positionById
      have hwritten : ∃ r ∈ (applyActions p.positionId .reflectedInEntryBasis
          (s.clearBlockedActionRows p.positionId) a.reflected).trail.rows,
            r.positionId = p.positionId ∧ r.actionKey = e'.actionKey := exists_applyActions hp e' hreflected
      obtain ⟨r, hr, hid, hrk⟩ := hwritten
      exact ⟨r, mem_applyActions_of_mem (mem_applyActions_of_mem hr), hid, hrk.trans hkey'⟩
    · have happlicable : e' ∈ a.applicable := (ha.assessed.applicable e').2 ⟨hsplit, by simpa [hexd] using hbehind⟩
      obtain ⟨r, hr, hid, -, hrk⟩ := (applyAssessed_applied h.toTrailHistory ha.assessed
        fun e he => (ha.listed he).1).to_applied e' happlicable
      exact ⟨r, hr, hid, hrk.trans hkey'⟩
  obtain ⟨r, hr, hid, hrk⟩ := hrow
  have hofSplit : r.ofSplit = true := by
    have hok := hafter.rows r hr hid
    have hnb := not_blocked_applyAssessed hr hid
    unfold TrailOk at hok
    split at hok
    · rename_i hst
      exact TrailRow.ofSplit_iff.2 (.inl hst)
    · rename_i hst
      exact TrailRow.ofSplit_iff.2 (.inr hst)
    · obtain ⟨sym, ex, q, hdiv⟩ := hok
      rw [hrk] at hdiv
      cases hdiv
    · rename_i hst
      rw [hst] at hnb
      cases hnb
  obtain ⟨c', hc'⟩ := hafter.splitRows r hr hid hofSplit
  have heq : c' = c := by
    have hkeys := hc'.key
    rw [hrk] at hkeys
    simp only [ActionKey.split.injEq] at hkeys
    obtain ⟨h1, h2, h3⟩ := hkeys
    exact (Prod.ext h1 (Prod.ext h2 h3)).symm
  exact ⟨r, hr, hid, hofSplit, heq ▸ hc'⟩

end Assessment

/-! ## The share count as a product -/

theorem foldlM_factor {α : Type} {step : ℚ → α → Option ℚ} {f : α → ℚ} {rows : List α}
    (h : ∀ r ∈ rows, ∀ q, step q r = some (q * f r)) (q : ℚ) :
    rows.foldlM step q = some (q * (rows.map f).prod) := by
  induction rows generalizing q with
  | nil => simp
  | cons r rows ih =>
    obtain ⟨hr, hrows⟩ := List.forall_mem_cons.1 h
    rw [List.foldlM_cons, hr q]
    show rows.foldlM step (q * f r) = _
    rw [ih hrows, List.map_cons, List.prod_cons, mul_assoc]

/-- Factors of one do not matter. -/
theorem prod_map_filter {α : Type} {f : α → ℚ} {P : α → Bool} {l : List α} (h : ∀ x ∈ l, P x = false → f x = 1) :
    (l.map f).prod = ((l.filter P).map f).prod := by
  induction l with
  | nil => rfl
  | cons x l ih =>
    obtain ⟨hx, hl⟩ := List.forall_mem_cons.1 h
    rw [List.map_cons, List.prod_cons, ih hl]
    cases hP : P x with
    | true => rw [List.filter_cons_of_pos hP, List.map_cons, List.prod_cons]
    | false => rw [List.filter_cons_of_neg (by simp [hP]), hx hP, one_mul]

/-- What one row does to the shares held before day `d`. -/
def trailFactor (d : Date) (r : TrailRow) : ℚ :=
  r.exDate.elim 1 fun ex =>
    if r.status = .applied ∧ ex < d then r.ratio.1
    else if r.status = .reflectedInEntryBasis ∧ d < ex then (r.ratio.1)⁻¹ else 1

/-- What a split does to them, with the entry price on basis `B`. -/
def splitFactor (B d : Date) (c : SplitContent) : ℚ :=
  if B < c.2.1 ∧ c.2.1 < d then c.2.2 else if c.2.1 < B ∧ d < c.2.1 then (c.2.2)⁻¹ else 1

theorem trailFactor_of_not {r : TrailRow} (h : r.ofSplit = false) : trailFactor d r = 1 := by
  have hst : r.status ≠ .applied ∧ r.status ≠ .reflectedInEntryBasis := by
    simpa [TrailRow.ofSplit] using h
  unfold trailFactor
  cases r.exDate with
  | none => rfl
  | some ex => simp [hst.1, hst.2]

theorem SplitHistory.trailFactor_eq (h : SplitHistory S p B s) {r : TrailRow} (hr : r ∈ s.trail.rows)
    (hid : r.positionId = p.positionId) (hsplit : r.ofSplit = true) {c : SplitContent} (hc : SplitRow S p c r) :
    trailFactor d r = splitFactor B d c := by
  obtain ⟨happ, hrefl⟩ := h.side hr hid hc
  unfold trailFactor splitFactor
  rw [hc.exDate, hc.ratio]
  rcases TrailRow.ofSplit_iff.1 hsplit with hst | hst
  · have hlt := happ hst
    simp [hst, hlt, hlt.not_gt]
  · have hlt := hrefl hst
    simp [hst, hlt, hlt.not_gt]

theorem SplitHistory.sharesAtDateStep_eq (h : SplitHistory S p B s) {r : TrailRow} (hr : r ∈ s.trail.rows)
    (hid : r.positionId = p.positionId) (q : ℚ) : Store.sharesAtDateStep d q r = some (q * trailFactor d r) := by
  cases hsplit : r.ofSplit with
  | false =>
    rw [trailFactor_of_not hsplit, mul_one]
    unfold TrailRow.ofSplit at hsplit
    unfold Store.sharesAtDateStep
    rw [hsplit]
    rfl
  | true =>
    obtain ⟨c, hc⟩ := h.splitRows r hr hid hsplit
    unfold TrailRow.ofSplit at hsplit
    unfold Store.sharesAtDateStep trailFactor
    rw [hsplit, hc.kind, hc.exDate]
    simp only [Bool.and_self, if_true, Option.elim_some, Bool.and_eq_true, decide_eq_true_eq]
    split_ifs
    · rfl
    · rw [div_eq_mul_inv]
    · rw [mul_one]

/-- The splits behind the entry session. -/
def heldSplits (S : Finset SplitContent) (entry : Date) : Finset SplitContent := S.filter (entry < ·.2.1)

theorem mem_heldSplits {entry : Date} {c : SplitContent} : c ∈ heldSplits S entry ↔ c ∈ S ∧ entry < c.2.1 :=
  Finset.mem_filter

/-- The rows that matter are there: their factors are those of the distinct splits. -/
theorem SplitHistory.prod_trailFactor (h : SplitHistory S p B s)
    (hto : ∀ c ∈ heldSplits S p.entrySession, splitFactor B d c ≠ 1 →
      ∃ r ∈ s.trail.rows, r.positionId = p.positionId ∧ r.ofSplit = true ∧ SplitRow S p c r) :
    ((s.positionActionTrail p.positionId).map (trailFactor d)).prod =
      ∏ c ∈ heldSplits S p.entrySession, splitFactor B d c := by
  let rows := (s.positionActionTrail p.positionId).filter (·.ofSplit)
  have hmem : ∀ r, r ∈ rows ↔ r ∈ s.trail.rows ∧ r.positionId = p.positionId ∧ r.ofSplit = true := by
    intro r
    simp only [rows, Store.positionActionTrail, List.mem_filter, decide_eq_true_eq, and_assoc]
  have hrow : ∀ r ∈ rows, SplitRow S p r.content r := by
    intro r hr
    obtain ⟨hr, hid, hsplit⟩ := (hmem r).1 hr
    obtain ⟨c, hc⟩ := h.splitRows r hr hid hsplit
    rw [hc.content_eq]
    exact hc
  -- two rows of one split have one key
  have hnodup : (rows.map TrailRow.content).Nodup := by
    have hsub : rows.Nodup := (s.trail.nodup.filter _).filter _
    refine List.Nodup.map_on ?_ hsub
    intro r hr q hq hcontent
    have hkr := (hrow r hr).key
    have hkq := (hrow q hq).key
    rw [hcontent] at hkr
    apply s.trail.eq_of_key ((hmem r).1 hr).1 ((hmem q).1 hq).1
    rw [TrailRow.key, TrailRow.key, hkr, hkq, ((hmem r).1 hr).2.1, ((hmem q).1 hq).2.1]
  have hfactors : rows.map (trailFactor d) = (rows.map TrailRow.content).map (splitFactor B d) := by
    rw [List.map_map]
    apply List.map_congr_left
    intro r hr
    obtain ⟨hr', hid, hsplit⟩ := (hmem r).1 hr
    exact h.trailFactor_eq hr' hid hsplit (hrow r hr)
  have hsubset : (rows.map TrailRow.content).toFinset ⊆ heldSplits S p.entrySession := by
    intro c hc
    obtain ⟨r, hr, rfl⟩ := List.mem_map.1 (List.mem_toFinset.1 hc)
    exact mem_heldSplits.2 ⟨(hrow r hr).mem, (hrow r hr).held⟩
  calc ((s.positionActionTrail p.positionId).map (trailFactor d)).prod
      = (rows.map (trailFactor d)).prod := prod_map_filter fun r _ hnot => trailFactor_of_not hnot
    _ = ∏ c ∈ (rows.map TrailRow.content).toFinset, splitFactor B d c := by
        rw [hfactors, List.prod_toFinset _ hnodup]
    _ = ∏ c ∈ heldSplits S p.entrySession, splitFactor B d c := by
        apply Finset.prod_subset hsubset
        intro c hc hnot
        by_contra hne
        obtain ⟨r, hr, hid, hsplit, hcr⟩ := hto c hc hne
        apply hnot
        rw [List.mem_toFinset, ← hcr.content_eq]
        exact List.mem_map_of_mem ((hmem r).2 ⟨hr, hid, hsplit⟩)

/-- The factors up to the basis, corrected for the ex-date, are the factors up to the ex-date. -/
theorem prod_splitFactor {T : Finset SplitContent} (hB : ∀ c ∈ T, c.2.1 ≠ B) (hd : ∀ c ∈ T, c.2.1 ≠ d)
    (hpos : ∀ c ∈ T, c.2.1 < B → c.2.2 ≠ 0) :
    (∏ c ∈ T with c.2.1 < B, c.2.2) * ∏ c ∈ T, splitFactor B d c = ∏ c ∈ T with c.2.1 < d, c.2.2 := by
  rw [Finset.prod_filter, Finset.prod_filter, ← Finset.prod_mul_distrib]
  apply Finset.prod_congr rfl
  intro c hc
  unfold splitFactor
  rcases lt_or_gt_of_ne (hB c hc) with hlt | hgt
  · have hne := hpos c hc hlt
    rcases lt_or_gt_of_ne (hd c hc) with hlt' | hgt'
    · simp [hlt, hlt', hlt.not_gt, hlt'.not_gt]
    · simp [hlt, hgt', hlt.not_gt, hgt'.not_gt, hne]
  · rcases lt_or_gt_of_ne (hd c hc) with hlt' | hgt'
    · simp [hgt, hlt', hgt.not_gt]
    · simp [hgt, hgt.not_gt, hgt'.not_gt]

/-! ## Assessments -/

/-- What is left when one assessment of the position allows settlement. -/
def WrittenBy (S : Finset SplitContent) (p : Position) (B : Date) (i : AssessInput) (s : Store) : Prop :=
  ∃ a t, SplitHistory S p B t ∧ AssessedOn S p B i a ∧ s = applyAssessed p a t

theorem SplitHistory.of_persistBlock {pid : ℕ} (h : SplitHistory S p B s) (key : ActionKey) (code : VerdictCode) :
    SplitHistory S p B ((s.clearBlockedActionRows pid).recordBlockedAction pid key code) := by
  refine h.of_rows rfl ?_
  intro r hr
  rcases Table.mem_insertOrIgnore hr with hr | rfl
  · exact .inl (List.mem_filter.1 hr).1
  · exact .inr (.inr rfl)

theorem SplitHistory.of_applyAssessed_of_ne (h : SplitHistory S p B s) {row : Position} (a : Assessed)
    (hne : row.positionId ≠ p.positionId) : SplitHistory S p B (applyAssessed row a s) := by
  have hpos : (applyAssessed row a s).positions = s.positions := by
    show (applyActions _ _ _ _).positions = _
    rw [positions_applyActions, positions_applyActions, positions_applyActions]
    rfl
  apply h.of_rows hpos
  intro r hr
  rcases mem_applyAssessed hr with ⟨hr, -⟩ | ⟨e, -, hrow⟩ | ⟨e, -, hrow⟩ | ⟨e, -, hrow⟩
  · exact .inl hr
  all_goals exact .inr (.inl (hrow.positionId ▸ hne))

/-- The history of the splits does not depend on what else is assessed. -/
theorem assessStable_splitHistory : AssessStable (SplitHistory S p B) p where
  mem h := h.mem
  block _ key code h := h.of_persistBlock key code
  other a hne h := h.of_applyAssessed_of_ne a hne

theorem wp_assessPosition_split (i : AssessInput) (hcls : i.evidence.Classified)
    (hnames : i.positionId = p.positionId → i.evidence.Names p.symbol S)
    (hB : p.entryProvenance.bind Provenance.basisAsOf = some B) (hopen : p.status = .open)
    (h : SplitHistory S p B s) :
    wp (keepsInv (SplitHistory S p B)) (assessPosition i.evidence i.positionId i.asOf i.fill)
      (fun v t => SplitHistory S p B t ∧ (i.positionId = p.positionId → v.settleOk = true → WrittenBy S p B i t))
      (SplitHistory S p B) s := by
  apply wp_assessPosition_rule assessStable_splitHistory hopen h
  intro a ds hid ha _
  have hon : AssessedOn S p B i a := assessedOn hcls (hnames hid) hB ha
  exact ⟨h.of_applyAssessed hon, a, s, h, hon, rfl⟩

theorem wp_assess_split (i : AssessInput) (hcls : i.evidence.Classified)
    (hnames : i.positionId = p.positionId → i.evidence.Names p.symbol S)
    (hB : p.entryProvenance.bind Provenance.basisAsOf = some B) (hopen : p.status = .open)
    (h : SplitHistory S p B s) :
    wp (keepsInv (SplitHistory S p B)) i.prog (fun _ => SplitHistory S p B) (SplitHistory S p B) s :=
  wp_then (wp_assessPosition_split i hcls hnames hB hopen h) fun _ _ hw => hw.1

/-! ## The ledger of a basis -/

/-- A position that was entered with `q` shares and priced on basis `B`, and its ledger when the assessment `i` has
allowed settlement, after any earlier ones. -/
structure ServedOn (S : Finset SplitContent) (q : ℚ) (entry B : Date) (p : Position) (i : AssessInput) (s : Store) :
    Prop where
  isOpen : p.status = .open
  entrySession : p.entrySession = entry
  basis : p.entryProvenance.bind Provenance.basisAsOf = some B
  basis_ne : ∀ c ∈ S, c.2.1 ≠ B
  shares : (p.shares : ℚ) = q * ∏ c ∈ S with entry < c.2.1 ∧ c.2.1 < B, c.2.2
  positionId : i.positionId = p.positionId
  classified : i.evidence.Classified
  names : i.evidence.Names p.symbol S
  covers : i.evidence.Covers p.symbol S
  history : ∃ s₀ segs t es v, p ∈ s₀.positions.rows ∧ s₀.positionActionTrail p.positionId = [] ∧
    Run AssessInput.prog s₀ segs t ∧
    (∀ g ∈ segs, g.input.evidence.Classified ∧
      (g.input.positionId = p.positionId → g.input.evidence.Names p.symbol S)) ∧
    Exec (assessPosition i.evidence i.positionId i.asOf i.fill) t es s (.done v) ∧ v.settleOk = true

/-- The window of the assessment reaches the splits before the ex-date and those that the basis reflects. -/
def Reaches (S : Finset SplitContent) (entry B d : Date) (i : AssessInput) : Prop :=
  ∀ c ∈ S, entry < c.2.1 → c.2.1 < d ∨ c.2.1 < B → c.2.1 ≤ assessStop i.asOf i.fill

instance {S : Finset SplitContent} {entry B d : Date} {i : AssessInput} : Decidable (Reaches S entry B d i) :=
  inferInstanceAs (Decidable (∀ c ∈ S, entry < c.2.1 → c.2.1 < d ∨ c.2.1 < B → c.2.1 ≤ assessStop i.asOf i.fill))

section Served

variable {q : ℚ} {entry : Date} {i : AssessInput}

theorem ServedOn.written (h : ServedOn S q entry B p i s) : SplitHistory S p B s ∧ WrittenBy S p B i s := by
  obtain ⟨s₀, segs, t, es, v, hp, hnew, hrun, hsegs, hexec, hok⟩ := h.history
  have hempty : ∀ r ∈ s₀.trail.rows, r.positionId ≠ p.positionId := by
    intro r hr hid
    have hmem : r ∈ s₀.positionActionTrail p.positionId := List.mem_filter.2 ⟨hr, by simpa using hid⟩
    rw [hnew] at hmem
    cases hmem
  have h0 : SplitHistory S p B s₀ :=
    ⟨⟨hp, fun r hr hid => absurd hid (hempty r hr)⟩, fun r hr hid => absurd hid (hempty r hr)⟩
  have ht : SplitHistory S p B t := (Run.invariant (fun _ => keepsInv (SplitHistory S p B)) (SplitHistory S p B)
    (fun j _ => j.evidence.Classified ∧ (j.positionId = p.positionId → j.evidence.Names p.symbol S)) h0
    (fun _ _ h => h)
    (fun j _ hj hc => wp_assess_split j hc.1 hc.2 h.basis h.isOpen hj) hrun
    fun g hg => ⟨hsegs g hg, fun _ _ => ⟨fun _ => trivial, fun _ => trivial⟩⟩).1
  have hend := (wp_sound hexec (wp_assessPosition_split i h.classified (fun _ => h.names) h.basis h.isOpen ht)
    fun _ _ => ⟨fun _ => trivial, fun _ => trivial⟩).2
  exact ⟨hend.1, hend.2 h.positionId hok⟩

theorem ServedOn.sharesAtDate (h : ServedOn S q entry B p i s) (hd : ∀ c ∈ S, c.2.1 ≠ d)
    (hreach : Reaches S entry B d i) :
    s.sharesAtDate p.positionId d = some (q * ∏ c ∈ S with entry < c.2.1 ∧ c.2.1 < d, c.2.2) := by
  obtain ⟨hhist, a, t, ht, hon, hs⟩ := h.written
  have hentry := h.entrySession
  subst hentry
  -- the rows of the window are there
  have hrow : ∀ c ∈ heldSplits S p.entrySession, c.2.1 < d ∨ c.2.1 < B →
      ∃ r ∈ s.trail.rows, r.positionId = p.positionId ∧ r.ofSplit = true ∧ SplitRow S p c r := by
    intro c hc hside
    obtain ⟨hcS, hlt⟩ := mem_heldSplits.1 hc
    rw [hs]
    exact ht.exists_row hon h.covers hcS (h.basis_ne c hcS) hlt (hreach c hcS hlt hside)
  have hto : ∀ c ∈ heldSplits S p.entrySession, splitFactor B d c ≠ 1 →
      ∃ r ∈ s.trail.rows, r.positionId = p.positionId ∧ r.ofSplit = true ∧ SplitRow S p c r := by
    intro c hc hne
    apply hrow c hc
    unfold splitFactor at hne
    split at hne
    · rename_i hbetween
      exact .inl hbetween.2
    · split at hne
      · rename_i hbetween
        exact .inr hbetween.1
      · exact absurd rfl hne
  have hpos : ∀ c ∈ heldSplits S p.entrySession, c.2.1 < B → c.2.2 ≠ 0 := by
    intro c hc hlt
    obtain ⟨r, -, -, -, hcr⟩ := hrow c hc (.inr hlt)
    rw [← hcr.ratio]
    exact r.ratio.2.ne'
  have hfilter : ∀ x : Date, (heldSplits S p.entrySession).filter (fun c => c.2.1 < x) =
      S.filter fun c => p.entrySession < c.2.1 ∧ c.2.1 < x := fun x => Finset.filter_filter _ _ _
  have hproduct := prod_splitFactor (B := B) (d := d)
    (fun c hc => h.basis_ne c (mem_heldSplits.1 hc).1) (fun c hc => hd c (mem_heldSplits.1 hc).1) hpos
  rw [hfilter, hfilter] at hproduct
  have hrows : ∀ r ∈ s.positionActionTrail p.positionId, ∀ q,
      Store.sharesAtDateStep d q r = some (q * trailFactor d r) := by
    intro r hr q
    obtain ⟨hr, hid⟩ := List.mem_filter.1 hr
    exact hhist.sharesAtDateStep_eq hr (by simpa using hid) q
  calc s.sharesAtDate p.positionId d
      = some ((p.shares : ℚ) * ((s.positionActionTrail p.positionId).map (trailFactor d)).prod) := by
        unfold Store.sharesAtDate
        rw [foldlM_factor hrows, hhist.toTrailHistory.positionById]
        rfl
    _ = some (q * ((∏ c ∈ S with p.entrySession < c.2.1 ∧ c.2.1 < B, c.2.2) *
          ∏ c ∈ heldSplits S p.entrySession, splitFactor B d c)) := by
        rw [hhist.prod_trailFactor hto, h.shares, mul_assoc]
    _ = some (q * ∏ c ∈ S with p.entrySession < c.2.1 ∧ c.2.1 < d, c.2.2) := by rw [hproduct]

end Served

theorem entitled_shares_independent (S : Finset SplitContent) (q : ℚ) (entry d : Date) (hd : ∀ c ∈ S, c.2.1 ≠ d)
    {p p' : Position} {B B' : Date} {i i' : AssessInput} {s s' : Store} (h : ServedOn S q entry B p i s)
    (h' : ServedOn S q entry B' p' i' s') (hreach : Reaches S entry B d i) (hreach' : Reaches S entry B' d i') :
    s.sharesAtDate p.positionId d = some (q * ∏ c ∈ S with entry < c.2.1 ∧ c.2.1 < d, c.2.2) ∧
      s'.sharesAtDate p'.positionId d = some (q * ∏ c ∈ S with entry < c.2.1 ∧ c.2.1 < d, c.2.2) :=
  ⟨h.sharesAtDate hd hreach, h'.sharesAtDate hd hreach'⟩

/-! ## A sample -/

/-- An entry of session 30. -/
def entered (shares : ℕ) (basis : Date) : Position :=
  { nineShares with shares := shares, entryProvenance := some ⟨some basis, some "RAW"⟩ }

def enteredStore (shares : ℕ) (basis : Date) : Store :=
  { Store.init 100000 with positions := ⟨⟨[entered shares basis], List.nodup_singleton _⟩, rfl⟩ }

/-- One source with one listing. -/
def oneListing (events : List CorporateActionEvent) : Evidence := fun _ _ _ => [.listing "alpaca" events]

/-- The first sweep after the entry. -/
def firstSweep (events : List CorporateActionEvent) (shares : ℕ) (basis asOf : Date) : Store × Outcome Verdict :=
  (exec (assessPosition (oneListing events) 1 asOf none) [] (enteredStore shares basis)).2

/-- The sweep allows settlement. -/
def sweepOk : Outcome Verdict → Bool
  | .done v => v.settleOk
  | _ => false

theorem servedOn_firstSweep (events : List CorporateActionEvent) (asOf : Date) {q : ℚ} {shares : ℕ} {basis : Date}
    (hne : ∀ c ∈ S, c.2.1 ≠ basis) (hshares : (shares : ℚ) = q * ∏ c ∈ S with 30 < c.2.1 ∧ c.2.1 < basis, c.2.2)
    (hcls : ∀ e ∈ events, e.Classified) (hnames : ∀ e ∈ events, e.splitContent.all (· ∈ S) = true)
    (hcovers : ∀ c ∈ S, ∃ e ∈ events, e.splitContent = some c)
    (hok : sweepOk (firstSweep events shares basis asOf).2 = true) :
    ServedOn S q 30 basis (entered shares basis) ⟨oneListing events, 1, asOf, none⟩
      (firstSweep events shares basis asOf).1 := by
  have hexec := exec_sound (assessPosition (oneListing events) 1 asOf none) [] (enteredStore shares basis)
  constructor
  case isOpen => rfl
  case entrySession => rfl
  case basis => rfl
  case basis_ne => exact hne
  case shares => exact hshares
  case positionId => rfl
  case classified =>
    intro symbol start stop a ha
    rw [List.mem_singleton.1 ha]
    exact hcls
  case names =>
    intro start stop a ha e he c hc
    rw [List.mem_singleton.1 ha] at he
    have hall := hnames e he
    rw [hc] at hall
    simpa using hall
  case covers =>
    intro start stop c hc _ _
    obtain ⟨e, he, hec⟩ := hcovers c hc
    exact ⟨_, List.mem_singleton_self _, e, he, hec⟩
  case history =>
    unfold firstSweep at hok ⊢
    cases hdone : (exec (assessPosition (oneListing events) 1 asOf none) [] (enteredStore shares basis)).2.2 with
    | done v =>
      rw [hdone] at hexec hok
      exact ⟨_, [], _, _, v, List.mem_singleton_self _, rfl, .nil, by simp, hexec, hok⟩
    | raised =>
      rw [hdone] at hok
      cases hok
    | crashed =>
      rw [hdone] at hok
      cases hok

/-- Doubled on day 35, and one for four on day 38. -/
def twoSplits : List CorporateActionEvent :=
  [splitRecord "forward_splits" "alpaca" "r1" 35 2 1, splitRecord "reverse_splits" "alpaca" "r2" 38 1 4]

theorem splitRecord_classified {events : List CorporateActionEvent}
    (h : ∀ e ∈ events, ∃ kind source id ex new old, e = splitRecord kind source id ex new old) :
    ∀ e ∈ events, e.Classified := by
  intro e he
  obtain ⟨kind, source, id, ex, new, old, rfl⟩ := h e he
  exact classifyAlpacaRecord_classified _ _ _ _

theorem twoSplits_classified : ∀ e ∈ twoSplits, e.Classified := by
  apply splitRecord_classified
  intro e he
  rcases List.mem_cons.1 he with rfl | he
  · exact ⟨_, _, _, _, _, _, rfl⟩
  · exact ⟨_, _, _, _, _, _, List.mem_singleton.1 he⟩

/-- Eight shares on the basis of day 31 are two on that of day 40, and sixteen receive the dividend of day 37. -/
theorem entitled_shares_independent_sample :
    (firstSweep twoSplits 8 31 41).1.sharesAtDate 1 37 = some 16 ∧
      (firstSweep twoSplits 4 40 41).1.sharesAtDate 1 37 = some 16 := by
  let S : Finset SplitContent := {("ACME", 35, 2), ("ACME", 38, 1 / 4)}
  have h : ServedOn S 8 30 31 (entered 8 31) ⟨oneListing twoSplits, 1, 41, none⟩ (firstSweep twoSplits 8 31 41).1 :=
    servedOn_firstSweep twoSplits 41 (by decide +kernel) (by decide +kernel) twoSplits_classified (by decide +kernel)
      (by decide +kernel) (by decide +kernel)
  have h' : ServedOn S 8 30 40 (entered 4 40) ⟨oneListing twoSplits, 1, 41, none⟩ (firstSweep twoSplits 4 40 41).1 :=
    servedOn_firstSweep twoSplits 41 (by decide +kernel) (by decide +kernel) twoSplits_classified (by decide +kernel)
      (by decide +kernel) (by decide +kernel)
  have hvalue : (8 : ℚ) * ∏ c ∈ S with 30 < c.2.1 ∧ c.2.1 < 37, c.2.2 = 16 := by decide +kernel
  have hboth := entitled_shares_independent S 8 30 37 (by decide +kernel) h h' (by decide +kernel) (by decide +kernel)
  rw [hvalue] at hboth
  exact hboth

/-- A split before the entry does not count, and neither does one that the assessments have not reached. -/
theorem earlier_split_not_counted :
    (∃ (S : Finset SplitContent) (q : ℚ) (p : Position) (B d : Date) (i : AssessInput) (s : Store),
      ServedOn S q 30 B p i s ∧ Reaches S 30 B d i ∧ (∀ c ∈ S, c.2.1 ≠ d) ∧
        s.sharesAtDate p.positionId d ≠ some (q * ∏ c ∈ S with c.2.1 < d, c.2.2)) ∧
    ∃ (S : Finset SplitContent) (q : ℚ) (p : Position) (B d : Date) (i : AssessInput) (s : Store),
      ServedOn S q 30 B p i s ∧ (∀ c ∈ S, c.2.1 ≠ d) ∧ (∀ c ∈ S, 30 < c.2.1) ∧
        s.sharesAtDate p.positionId d ≠ some (q * ∏ c ∈ S with c.2.1 < d, c.2.2) := by
  have hcls : ∀ ex new, ∀ e ∈ [splitRecord "forward_splits" "alpaca" "r1" ex new 1], e.Classified := by
    intro ex new
    apply splitRecord_classified
    intro e he
    exact ⟨_, _, _, _, _, _, List.mem_singleton.1 he⟩
  constructor
  · refine ⟨{("ACME", 25, 3)}, 9, entered 9 31, 31, 35, _, _,
      servedOn_firstSweep [splitRecord "forward_splits" "alpaca" "r1" 25 3 1] 36
        (by decide +kernel) (by decide +kernel) (hcls 25 3) (by decide +kernel) (by decide +kernel) (by decide +kernel),
      ?_, ?_, ?_⟩
    all_goals decide +kernel
  · refine ⟨{("ACME", 35, 2)}, 9, entered 9 31, 31, 37, _, _,
      servedOn_firstSweep [splitRecord "forward_splits" "alpaca" "r1" 35 2 1] 32
        (by decide +kernel) (by decide +kernel) (hcls 35 2) (by decide +kernel) (by decide +kernel) (by decide +kernel),
      ?_, ?_, ?_⟩
    all_goals decide +kernel

end TalonX.V2
