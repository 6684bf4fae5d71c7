import TalonX.V2.CorporateActions

/-!
# The composite adapter

`CompositeBarAdapter`: the final history of one source, with the recent tail of another behind it.

- `requireCompatible`: when the two may be spliced; `history`: the merged rows, or the refusal;
- `bases`: the basis of every row, with a stand-in where it is unknown; `Proven`: what a splice has to rest on;
- `mem_bases_lower`, `mem_bases_upper`: the bounds that the check uses are bases of two rows;
- `splice_safe_iff`: exactly when an accepted history is safe.
-/

set_option autoImplicit false

namespace TalonX.V2

/-- A row of a history. A price or a volume that is not a number is `none`. -/
structure HistoryRow where
  date : Date
  openPrice : Option ℚ
  closePrice : Option ℚ
  volume : Option ℚ
  adjustmentState : Option String
  basisAsOf : Option Date
  sourceAdapter : Option String
  deriving DecidableEq, Repr

structure DailyBarAdapter where
  name : String
  history : Symbol → List HistoryRow

/-- `caSource`: the corporate-action evidence for a symbol between two days. -/
structure CompositeBarAdapter where
  hist : DailyBarAdapter
  live : DailyBarAdapter
  caSource : Option (Symbol → Date → Date → CASourceResult)
  today : Date

/-- Why a splice is refused. -/
inductive IncompatibleAdjustmentBasis
  | adjustmentStateMismatch
  | noEvidenceSource (hist live : Option Date)
  | evidenceUnavailable (hist live : Option Date)
  | conflictingEvidence (conflicts : List Conflict)
  | crossed (e : CorporateActionEvent) (hist live : Option Date)

/-- `_tag`. -/
def DailyBarAdapter.tag (a : DailyBarAdapter) (r : HistoryRow) : HistoryRow := { r with sourceAdapter := some a.name }

/-- `_basis`: the earliest basis, when every row has one. -/
def basis (rows : List HistoryRow) : Option Date :=
  if rows.any (·.basisAsOf.isNone) then none else (rows.filterMap (·.basisAsOf)).min?

/-- `_states`. -/
def adjustmentStates (rows : List HistoryRow) : Finset (Option String) := (rows.map (·.adjustmentState)).toFinset

def lastDate (rows : List HistoryRow) : Date := ((rows.map (·.date)).max?).getD 0

/-- A split or an unsupported action that is effective in `(lower, upper]`, or at no known date. -/
def CorporateActionEvent.crosses (lower upper : Date) (e : CorporateActionEvent) : Bool :=
  e.kind ≠ .cashDividend && e.exDate.elim true fun d => lower < d && d ≤ upper

namespace CompositeBarAdapter

variable (c : CompositeBarAdapter) (symbol : Symbol)

/-- The bounds of the check: the basis of each source, or its stand-in. -/
def lower (h : List HistoryRow) : Date := (basis h).getD (lastDate h)

def upper (l : List HistoryRow) : Date := (basis l).getD c.today

def requireCompatible (h l : List HistoryRow) : Except IncompatibleAdjustmentBasis Unit :=
  if adjustmentStates h ≠ adjustmentStates l then .error .adjustmentStateMismatch
  else if (basis h).isSome ∧ basis h = basis l then .ok ()
  else
    match c.caSource with
    | none => .error (.noEvidenceSource (basis h) (basis l))
    | some fetch =>
      if c.upper l ≤ lower h then .ok ()
      else
        let res := fetch symbol (lower h + 1) (c.upper l)
        if !res.ok then .error (.evidenceUnavailable (basis h) (basis l))
        else if res.conflicts.isEmpty then
          match res.events.find? (·.crosses (lower h) (c.upper l)) with
          | some e => .error (.crossed e (basis h) (basis l))
          | none => .ok ()
        else .error (.conflictingEvidence res.conflicts)

def finalRows : List HistoryRow := (c.hist.history symbol).map c.hist.tag

/-- The rows of the live source for days that the final history does not have. -/
def tail : List HistoryRow :=
  ((c.live.history symbol).filter fun r => r.date ∉ (c.finalRows symbol).map (·.date)).map c.live.tag

def merged : List HistoryRow := (c.finalRows symbol ++ c.tail symbol).insertionSort (·.date ≤ ·.date)

def history : Except IncompatibleAdjustmentBasis (List HistoryRow) :=
  if c.finalRows symbol ≠ [] ∧ c.tail symbol ≠ [] then
    match c.requireCompatible symbol (c.finalRows symbol) (c.tail symbol) with
    | .error e => .error e
    | .ok () => .ok (c.merged symbol)
  else .ok (c.merged symbol)

/-! ## What a splice rests on -/

/-- The basis of every row; the last final day and today stand for unknown ones. -/
def bases : List Date :=
  (c.finalRows symbol).map (fun r => r.basisAsOf.getD (lastDate (c.finalRows symbol))) ++
    (c.tail symbol).map (fun r => r.basisAsOf.getD c.today)

def earliest : Date := ((c.bases symbol).min?).getD 0

def latest : Date := ((c.bases symbol).max?).getD 0

/-- The evidence for `(lower, upper]` is there, without conflict, and reports nothing but cash dividends in it. -/
def Clear (lower upper : Date) : Prop :=
  ∃ fetch, c.caSource = some fetch ∧ (fetch symbol (lower + 1) upper).ok = true ∧
    (fetch symbol (lower + 1) upper).conflicts = [] ∧
    ∀ e ∈ (fetch symbol (lower + 1) upper).events, e.crosses lower upper = false

/-- All rows have one known basis, or nothing happened between the earliest basis and the latest one. -/
def Proven : Prop :=
  (∃ b, ∀ r ∈ c.finalRows symbol ++ c.tail symbol, r.basisAsOf = some b) ∨
    c.latest symbol ≤ c.earliest symbol ∨ c.Clear symbol (c.earliest symbol) (c.latest symbol)

/-- A history is safe: ascending, one row for a day; and when rows of both sources are in it, they carry one adjustment
state and their bases are proven compatible. -/
structure Safe (rows : List HistoryRow) : Prop where
  ascending : rows.Pairwise (·.date < ·.date)
  spliced : c.finalRows symbol ≠ [] → c.tail symbol ≠ [] →
    (∃ st, ∀ r ∈ rows, r.adjustmentState = st) ∧ c.Proven symbol

/-! ## The bounds of the check -/

section Bounds

variable {c : CompositeBarAdapter} {symbol : Symbol} {rows : List HistoryRow}

/-- Either every row has a basis and the least one counts, or some row has none. -/
theorem basis_cases (hrows : rows ≠ []) :
    (∃ b, basis rows = some b ∧ (∃ r ∈ rows, r.basisAsOf = some b) ∧ ∀ r ∈ rows, ∃ b', r.basisAsOf = some b' ∧ b ≤ b') ∨
      basis rows = none ∧ ∃ r ∈ rows, r.basisAsOf = none := by
  unfold basis
  by_cases hnone : rows.any (·.basisAsOf.isNone) = true
  · rw [if_pos hnone]
    obtain ⟨r, hr, hb⟩ := List.any_eq_true.1 hnone
    exact .inr ⟨rfl, r, hr, Option.isNone_iff_eq_none.1 hb⟩
  · rw [if_neg hnone]
    have hall : ∀ r ∈ rows, ∃ b, r.basisAsOf = some b := fun r hr => by
      cases hb : r.basisAsOf with
      | none => exact absurd (List.any_eq_true.2 ⟨r, hr, by rw [hb]; rfl⟩) hnone
      | some b => exact ⟨b, rfl⟩
    have hne : rows.filterMap (·.basisAsOf) ≠ [] := by
      obtain ⟨r, hr⟩ := List.exists_mem_of_ne_nil rows hrows
      obtain ⟨b, hb⟩ := hall r hr
      exact List.ne_nil_of_mem (List.mem_filterMap.2 ⟨r, hr, hb⟩)
    obtain ⟨b, hmin⟩ := Option.isSome_iff_exists.1 (List.isSome_min?_of_ne_nil hne)
    obtain ⟨hmem, hle⟩ := List.min?_eq_some_iff.1 hmin
    refine .inl ⟨b, hmin, List.mem_filterMap.1 hmem, fun r hr => ?_⟩
    obtain ⟨b', hb'⟩ := hall r hr
    exact ⟨b', hb', hle b' (List.mem_filterMap.2 ⟨r, hr, hb'⟩)⟩

/-- The bound of a source is the basis of one of its rows. -/
theorem mem_map_basis (hrows : rows ≠ []) (standIn : Date) :
    (basis rows).getD standIn ∈ rows.map (·.basisAsOf.getD standIn) := by
  rcases basis_cases hrows with ⟨b, hb, ⟨r, hr, hrb⟩, -⟩ | ⟨hb, r, hr, hrb⟩
  · exact List.mem_map.2 ⟨r, hr, by rw [hb, hrb]⟩
  · exact List.mem_map.2 ⟨r, hr, by rw [hb, hrb]⟩

theorem mem_bases_lower (hfinal : c.finalRows symbol ≠ []) : lower (c.finalRows symbol) ∈ c.bases symbol :=
  List.mem_append_left _ (mem_map_basis hfinal _)

theorem mem_bases_upper (htail : c.tail symbol ≠ []) : c.upper (c.tail symbol) ∈ c.bases symbol :=
  List.mem_append_right _ (mem_map_basis htail _)

theorem earliest_le {b : Date} (hb : b ∈ c.bases symbol) : c.earliest symbol ≤ b := by
  obtain ⟨m, hm⟩ := Option.isSome_iff_exists.1 (List.isSome_min?_of_mem hb)
  rw [earliest, hm]
  exact (List.min?_eq_some_iff.1 hm).2 b hb

theorem le_latest {b : Date} (hb : b ∈ c.bases symbol) : b ≤ c.latest symbol := by
  obtain ⟨m, hm⟩ := Option.isSome_iff_exists.1 (List.isSome_max?_of_mem hb)
  rw [latest, hm]
  exact (List.max?_eq_some_iff.1 hm).2 b hb

/-- Every basis lies between the bounds of the check. -/
def Covered (c : CompositeBarAdapter) (symbol : Symbol) : Prop :=
  ∀ b ∈ c.bases symbol, lower (c.finalRows symbol) ≤ b ∧ b ≤ c.upper (c.tail symbol)

theorem Covered.eq (h : c.Covered symbol) (hfinal : c.finalRows symbol ≠ []) (htail : c.tail symbol ≠ []) :
    lower (c.finalRows symbol) = c.earliest symbol ∧ c.upper (c.tail symbol) = c.latest symbol := by
  have hlower := mem_bases_lower hfinal
  have hupper := mem_bases_upper htail
  obtain ⟨m, hm⟩ := Option.isSome_iff_exists.1 (List.isSome_min?_of_mem hlower)
  obtain ⟨n, hn⟩ := Option.isSome_iff_exists.1 (List.isSome_max?_of_mem hlower)
  constructor
  · refine Nat.le_antisymm ?_ (earliest_le hlower)
    rw [earliest, hm]
    exact (h m (List.min?_eq_some_iff.1 hm).1).1
  · refine Nat.le_antisymm (le_latest hupper) ?_
    rw [latest, hn]
    exact (h n (List.max?_eq_some_iff.1 hn).1).2

end Bounds

/-! ## Accepted splices -/

section Accepted

variable {c : CompositeBarAdapter} {symbol : Symbol} {rows : List HistoryRow}

/-- When the check lets two sources be spliced: the same states, and the same basis, or no split between their bounds. -/
def Spliceable (c : CompositeBarAdapter) (symbol : Symbol) (h l : List HistoryRow) : Prop :=
  adjustmentStates h = adjustmentStates l ∧
    ((∃ b, basis h = some b ∧ basis l = some b) ∨ c.caSource.isSome ∧ c.upper l ≤ lower h ∨
      c.Clear symbol (lower h) (c.upper l))

/-- One source has no row, or the two may be spliced. -/
def Accepted (c : CompositeBarAdapter) (symbol : Symbol) : Prop :=
  c.finalRows symbol ≠ [] → c.tail symbol ≠ [] → c.Spliceable symbol (c.finalRows symbol) (c.tail symbol)

theorem Spliceable.of_ok {h l : List HistoryRow} (hok : c.requireCompatible symbol h l = .ok ()) :
    c.Spliceable symbol h l := by
  unfold requireCompatible at hok
  split at hok
  · cases hok
  rename_i hstates
  refine ⟨not_not.1 hstates, ?_⟩
  split at hok
  · rename_i hsame
    obtain ⟨b, hb⟩ := Option.isSome_iff_exists.1 hsame.1
    exact .inl ⟨b, hb, hsame.2.symm.trans hb⟩
  split at hok
  · cases hok
  rename_i fetch hfetch
  split at hok
  · rename_i hbounds
    exact .inr (.inl ⟨by rw [hfetch]; rfl, hbounds⟩)
  dsimp only at hok
  split at hok
  · cases hok
  rename_i hanswer
  split at hok
  · rename_i hconflicts
    split at hok
    · cases hok
    rename_i hnone
    refine .inr (.inr ⟨fetch, hfetch, by simpa using hanswer, List.isEmpty_iff.1 hconflicts, fun e he => ?_⟩)
    simpa using List.find?_eq_none.1 hnone e he
  · cases hok

theorem Spliceable.ok {h l : List HistoryRow} (hsplice : c.Spliceable symbol h l) :
    c.requireCompatible symbol h l = .ok () := by
  obtain ⟨hstates, hcase⟩ := hsplice
  unfold requireCompatible
  rw [if_neg (not_not.2 hstates)]
  by_cases hsame : (basis h).isSome ∧ basis h = basis l
  · rw [if_pos hsame]
  rw [if_neg hsame]
  rcases hcase with ⟨b, hb, hb'⟩ | ⟨hsource, hbounds⟩ | ⟨fetch, hfetch, hanswer, hconflicts, hclean⟩
  · exact absurd ⟨by rw [hb]; rfl, hb.trans hb'.symm⟩ hsame
  · obtain ⟨fetch, hfetch⟩ := Option.isSome_iff_exists.1 hsource
    simp only [hfetch, if_pos hbounds]
  · have hnone : (fetch symbol (lower h + 1) (c.upper l)).events.find? (·.crosses (lower h) (c.upper l)) = none :=
      List.find?_eq_none.2 fun e he => by rw [hclean e he]; decide
    simp only [hfetch, hanswer, hconflicts, hnone]
    split <;> rfl

theorem history_eq_ok : c.history symbol = .ok rows ↔ c.Accepted symbol ∧ rows = c.merged symbol := by
  unfold history Accepted
  by_cases hboth : c.finalRows symbol ≠ [] ∧ c.tail symbol ≠ []
  · rw [if_pos hboth]
    constructor
    · intro hok
      cases hcheck : c.requireCompatible symbol (c.finalRows symbol) (c.tail symbol) with
      | error e =>
        rw [hcheck] at hok
        cases hok
      | ok u =>
        rw [hcheck] at hok
        exact ⟨fun _ _ => .of_ok hcheck, (Except.ok.inj hok).symm⟩
    · rintro ⟨hsplice, rfl⟩
      rw [(hsplice hboth.1 hboth.2).ok]
  · rw [if_neg hboth]
    constructor
    · intro hok
      exact ⟨fun hfinal htail => absurd ⟨hfinal, htail⟩ hboth, (Except.ok.inj hok).symm⟩
    · rintro ⟨-, rfl⟩
      rfl

/-- Merged rows are in ascending order, one for a day, when each source has one row for a day. -/
theorem ascending_merged : (c.merged symbol).Pairwise (·.date < ·.date) ↔
    ((c.finalRows symbol).map (·.date)).Nodup ∧ ((c.tail symbol).map (·.date)).Nodup := by
  have hperm : ((c.merged symbol).map (·.date)).Perm ((c.finalRows symbol ++ c.tail symbol).map (·.date)) :=
    (List.perm_insertionSort _ _).map _
  have hapart : (c.finalRows symbol |>.map (·.date)).Disjoint ((c.tail symbol).map (·.date)) := by
    intro d hd hd'
    obtain ⟨r, hr, rfl⟩ := List.mem_map.1 hd'
    obtain ⟨q, hq, rfl⟩ := List.mem_map.1 hr
    exact of_decide_eq_true (List.mem_filter.1 hq).2 hd
  have hnodup : ((c.merged symbol).map (·.date)).Nodup ↔
      ((c.finalRows symbol).map (·.date)).Nodup ∧ ((c.tail symbol).map (·.date)).Nodup := by
    rw [hperm.nodup_iff, List.map_append, List.nodup_append']
    simp [hapart]
  rw [← hnodup]
  constructor
  · intro h
    exact List.pairwise_map.2 (h.imp fun hlt => Nat.ne_of_lt hlt)
  · intro h
    have htotal : Std.Total fun a b : HistoryRow => a.date ≤ b.date := ⟨fun a b => le_total a.date b.date⟩
    have htrans : IsTrans HistoryRow fun a b => a.date ≤ b.date := ⟨fun a b d => le_trans⟩
    have hsorted : (c.merged symbol).Pairwise (·.date ≤ ·.date) := List.pairwise_insertionSort _ _
    exact hsorted.imp₂ (fun a b hle hne => Nat.lt_of_le_of_ne hle hne) (List.pairwise_map.1 h)

theorem mem_merged {r : HistoryRow} : r ∈ c.merged symbol ↔ r ∈ c.finalRows symbol ∨ r ∈ c.tail symbol :=
  ((List.perm_insertionSort _ _).mem_iff).trans List.mem_append

/-- Sources with the same states: the merged rows carry one state when the final rows do. -/
theorem one_state_merged
    (hstates : adjustmentStates (c.finalRows symbol) = adjustmentStates (c.tail symbol)) :
    (∃ st, ∀ r ∈ c.merged symbol, r.adjustmentState = st) ↔ ∃ st, ∀ r ∈ c.finalRows symbol, r.adjustmentState = st := by
  refine exists_congr fun st => ⟨fun h r hr => h r (mem_merged.2 (.inl hr)), fun h r hr => ?_⟩
  rcases mem_merged.1 hr with hr | hr
  · exact h r hr
  · have hstate : r.adjustmentState ∈ adjustmentStates (c.finalRows symbol) := by
      rw [hstates]
      exact List.mem_toFinset.2 (List.mem_map_of_mem hr)
    obtain ⟨q, hq, hqr⟩ := List.mem_map.1 (List.mem_toFinset.1 hstate)
    exact hqr.symm.trans (h q hq)

/-- The check looks at everything when its bounds cover the bases. -/
theorem Spliceable.proven (h : c.Spliceable symbol (c.finalRows symbol) (c.tail symbol)) (hcov : c.Covered symbol)
    (hfinal : c.finalRows symbol ≠ []) (htail : c.tail symbol ≠ []) : c.Proven symbol := by
  obtain ⟨hlower, hupper⟩ := hcov.eq hfinal htail
  rcases h.2 with ⟨b, hb, hb'⟩ | ⟨-, hbounds⟩ | hclear
  · refine .inr (.inl ?_)
    rw [← hlower, ← hupper, lower, upper, hb, hb']
    exact Nat.le_refl b
  · exact .inr (.inl (by rwa [← hlower, ← hupper]))
  · exact .inr (.inr (by rwa [← hlower, ← hupper]))

/-- What is proven is proven by the evidence for the whole interval, or by bases that are all the same. -/
theorem Proven.covered_or_clear (h : c.Proven symbol) (hfinal : c.finalRows symbol ≠ []) (htail : c.tail symbol ≠ []) :
    c.Covered symbol ∨ c.Clear symbol (c.earliest symbol) (c.latest symbol) := by
  have hagree (hle : ∀ b ∈ c.bases symbol, ∀ b' ∈ c.bases symbol, b ≤ b') : c.Covered symbol := fun b hb =>
    ⟨hle _ (mem_bases_lower hfinal) b hb, hle b hb _ (mem_bases_upper htail)⟩
  rcases h with ⟨b, hknown⟩ | hle | hclear
  · have hsame : ∀ x ∈ c.bases symbol, x = b := by
      intro x hx
      rcases List.mem_append.1 hx with hx | hx
      · obtain ⟨r, hr, rfl⟩ := List.mem_map.1 hx
        rw [hknown r (List.mem_append_left _ hr)]
        rfl
      · obtain ⟨r, hr, rfl⟩ := List.mem_map.1 hx
        rw [hknown r (List.mem_append_right _ hr)]
        rfl
    exact .inl (hagree fun x hx y hy => by rw [hsame x hx, hsame y hy])
  · exact .inl (hagree fun x hx y hy => ((le_latest hx).trans hle).trans (earliest_le hy))
  · exact .inr hclear

end Accepted

/-! ## Safety -/

section Safety

variable {c : CompositeBarAdapter} {symbol : Symbol}

/-- Each source has one row for a day. When both have rows: the final ones carry one state, and the bounds of the check
cover every basis, or the evidence is clear for the whole interval between the bases. -/
structure Sound (c : CompositeBarAdapter) (symbol : Symbol) : Prop where
  final_dates : ((c.finalRows symbol).map (·.date)).Nodup
  tail_dates : ((c.tail symbol).map (·.date)).Nodup
  spliced : c.finalRows symbol ≠ [] → c.tail symbol ≠ [] →
    (∃ st, ∀ r ∈ c.finalRows symbol, r.adjustmentState = st) ∧
      (c.Covered symbol ∨ c.Clear symbol (c.earliest symbol) (c.latest symbol))

theorem Sound.safe (h : c.Sound symbol) (hacc : c.Accepted symbol) : c.Safe symbol (c.merged symbol) where
  ascending := ascending_merged.2 ⟨h.final_dates, h.tail_dates⟩
  spliced hfinal htail := by
    have hsplice := hacc hfinal htail
    obtain ⟨hstate, hbases⟩ := h.spliced hfinal htail
    refine ⟨(one_state_merged hsplice.1).2 hstate, ?_⟩
    rcases hbases with hcov | hclear
    · exact hsplice.proven hcov hfinal htail
    · exact .inr (.inr hclear)

theorem Safe.sound (h : c.Safe symbol (c.merged symbol)) (hacc : c.Accepted symbol) : c.Sound symbol where
  final_dates := (ascending_merged.1 h.ascending).1
  tail_dates := (ascending_merged.1 h.ascending).2
  spliced hfinal htail := by
    obtain ⟨hstate, hproven⟩ := h.spliced hfinal htail
    exact ⟨(one_state_merged (hacc hfinal htail).1).1 hstate, hproven.covered_or_clear hfinal htail⟩

end Safety

/-- **Price splice safety.** What `history` returns is safe for exactly the sources that it refuses or that are sound. -/
theorem splice_safe_iff :
    (∀ rows, c.history symbol = .ok rows → c.Safe symbol rows) ↔ (c.Accepted symbol → c.Sound symbol) := by
  constructor
  · intro h hacc
    exact (h _ (history_eq_ok.2 ⟨hacc, rfl⟩)).sound hacc
  · intro h rows hrows
    obtain ⟨hacc, rfl⟩ := history_eq_ok.1 hrows
    exact (h hacc).safe hacc

/-- Yesterday's bars on the basis of day 10, today's on that of day 5, and a split between the two. -/
def reversedBases : CompositeBarAdapter where
  hist := ⟨"csv", fun _ => [⟨3, some 10, some 10, some 100, some "SPLIT_ADJUSTED", some 10, none⟩]⟩
  live := ⟨"alpaca", fun _ => [⟨4, some 20, some 20, some 50, some "SPLIT_ADJUSTED", some 5, none⟩]⟩
  caSource := some fun symbol _ _ =>
    { source := "alpaca"
      ok := true
      events := [⟨.split symbol 7 2, symbol, .forwardSplit, "forward_splits", some 7, some ⟨2, by decide⟩, none, "alpaca",
        "1", false, none⟩]
      conflicts := [] }
  today := 20

/-- The bounds come out reversed, and the rows are spliced without a look at the evidence. -/
theorem splice_across_split :
    ¬ ∀ rows, reversedBases.history "MU" = .ok rows → reversedBases.Safe "MU" rows := by
  intro h
  have hrows : reversedBases.history "MU" = .ok (reversedBases.merged "MU") := by
    refine history_eq_ok.2 ⟨fun _ _ => ?_, rfl⟩
    exact ⟨by decide +kernel, .inr (.inl ⟨by decide, by decide⟩)⟩
  obtain ⟨-, hproven⟩ := (h _ hrows).spliced (by decide) (by decide)
  rcases hproven with ⟨b, hknown⟩ | hle | ⟨fetch, hfetch, -, -, hclean⟩
  · have hfinal := hknown _ (List.mem_append_left _ (List.mem_singleton.2 rfl))
    have htail := hknown _ (List.mem_append_right _ (List.mem_singleton.2 rfl))
    exact absurd (hfinal.trans htail.symm) (by decide)
  · exact absurd hle (by decide +kernel)
  · obtain rfl := Option.some.inj hfetch
    exact absurd (hclean _ (List.mem_singleton.2 rfl)) (by decide +kernel)

end CompositeBarAdapter

end TalonX.V2
