import Mathlib.Algebra.BigOperators.Group.Finset.Basic
import TalonX.V2.AssessRule

/-!
# Split neutrality

The trail is append-only and read again at every assessment. An `APPLIED` row is a reported split behind the entry basis;
after a verdict that allows settlement there is one for each such split, and for nothing else.

- `newSplits`: the distinct splits of a listing that the entry price does not reflect yet;
- `wp_assessPosition`: one assessment keeps the history, and its verdict stands for the share count;
- `closePosition_splitFree`: the economics of a settlement against those of the split-free position;
- `split_neutrality`: effective shares and realised result after any history of assessments.
-/

set_option autoImplicit false

namespace TalonX.V2

open Transact

variable {s s' : Store} {B : Date} {p : Position} {pid : ℕ}

/-! ## The distinct splits -/

/-- What makes a split the same split, whatever its provider id. -/
def CorporateActionEvent.splitContent (e : CorporateActionEvent) : Option (Symbol × Date × ℚ) :=
  if e.kind.isSplit then
    match e.exDate, e.ratio with
    | some ex, some ratio => some (e.symbol, ex, ratio.1)
    | _, _ => none
  else none

/-- The distinct splits in the window `(entry, stop]` with an ex-date after the entry basis. -/
def newSplits (answers : List SourceAnswer) (entry stop basis : Date) : Finset (Symbol × Date × ℚ) :=
  (((answers.flatMap SourceAnswer.events).filterMap CorporateActionEvent.splitContent).filter fun c =>
    entry < c.2.1 && c.2.1 ≤ stop && basis < c.2.1).toFinset

theorem mem_newSplits {answers : List SourceAnswer} {entry stop basis : Date} {c : Symbol × Date × ℚ} :
    c ∈ newSplits answers entry stop basis ↔
      (∃ a ∈ answers, ∃ e ∈ a.events, e.splitContent = some c) ∧ entry < c.2.1 ∧ c.2.1 ≤ stop ∧ basis < c.2.1 := by
  simp only [newSplits, List.mem_toFinset, List.mem_filter, List.mem_filterMap, List.mem_flatMap, Bool.and_eq_true,
    decide_eq_true_eq, and_assoc]
  constructor
  · rintro ⟨⟨e, ⟨a, ha, he⟩, hc⟩, hwin⟩
    exact ⟨⟨a, ha, e, he, hc⟩, hwin⟩
  · rintro ⟨⟨a, ha, e, he, hc⟩, hwin⟩
    exact ⟨⟨e, ⟨a, ha, he⟩, hc⟩, hwin⟩

/-- The content of a classified event can be read off its key. -/
theorem CorporateActionEvent.Classified.splitContent_eq_some {e : CorporateActionEvent} (h : e.Classified)
    {c : Symbol × Date × ℚ} : e.splitContent = some c ↔ e.actionKey = .split c.1 c.2.1 c.2.2 := by
  constructor
  · intro hc
    unfold CorporateActionEvent.splitContent at hc
    split at hc
    · rename_i hk
      obtain ⟨ex, ratio, hex, hratio, hkey⟩ := h.of_split hk
      rw [hex, hratio] at hc
      obtain rfl := Option.some.inj hc
      exact hkey
    · cases hc
  · intro hkey
    obtain ⟨hk, hsym, hex, ratio, hratio, hq⟩ := h.of_key hkey
    simp [CorporateActionEvent.splitContent, hk, hex, hratio, hsym, hq]

/-- The content of an applied row. -/
def TrailRow.content (r : TrailRow) : Symbol × Date × ℚ :=
  match r.actionKey with
  | .split sym ex q => (sym, ex, q)
  | _ => ("", 0, r.ratio.1)

theorem foldl_mul_ratio (rows : List TrailRow) (q : ℚ) :
    rows.foldl (fun q r => q * r.ratio.1) q = q * (rows.map fun r => r.ratio.1).prod := by
  induction rows generalizing q with
  | nil => simp
  | cons r rows ih =>
    rw [List.foldl_cons, ih, List.map_cons, List.prod_cons]
    ring

/-- When the applied rows are the given splits, one row each, their ratios are the factors of the share count. -/
theorem effectiveSharesExact_eq (h : TrailHistory p B s) {cs : Finset (Symbol × Date × ℚ)}
    (hfrom : ∀ r ∈ s.trail.rows, r.positionId = p.positionId → r.status = .applied → r.content ∈ cs)
    (hto : ∀ c ∈ cs, ∃ r ∈ s.trail.rows, r.positionId = p.positionId ∧ r.status = .applied ∧ r.content = c) :
    s.effectiveSharesExact p.positionId = p.shares * ∏ c ∈ cs, c.2.2 := by
  let applied := (s.positionActionTrail p.positionId).filter (·.status = .applied)
  have hmem : ∀ r, r ∈ applied ↔ r ∈ s.trail.rows ∧ r.positionId = p.positionId ∧ r.status = .applied := by
    intro r
    simp only [applied, Store.positionActionTrail, List.mem_filter, decide_eq_true_eq, and_assoc]
  have hkey : ∀ r ∈ applied, ∃ sym ex, r.actionKey = .split sym ex r.ratio.1 := by
    intro r hr
    obtain ⟨hr, hid, hst⟩ := (hmem r).1 hr
    have hok := h.rows r hr hid
    simp only [TrailOk, hst] at hok
    obtain ⟨sym, ex, hk, -⟩ := hok
    exact ⟨sym, ex, hk⟩
  have hratio : ∀ r ∈ applied, r.content.2.2 = r.ratio.1 := by
    intro r hr
    obtain ⟨sym, ex, hk⟩ := hkey r hr
    simp [TrailRow.content, hk]
  -- two applied rows with one content have one key
  have hnodup : (applied.map TrailRow.content).Nodup := by
    have hsub : applied.Nodup := (s.trail.nodup.filter _).filter _
    refine List.Nodup.map_on (fun r hr q hq hc => ?_) hsub
    obtain ⟨sym, ex, hkr⟩ := hkey r hr
    obtain ⟨sym', ex', hkq⟩ := hkey q hq
    simp only [TrailRow.content, hkr, hkq, Prod.mk.injEq] at hc
    obtain ⟨rfl, rfl, hq'⟩ := hc
    refine s.trail.eq_of_key ((hmem r).1 hr).1 ((hmem q).1 hq).1 ?_
    rw [TrailRow.key, TrailRow.key, hkr, hkq, ((hmem r).1 hr).2.1, ((hmem q).1 hq).2.1, hq']
  have hset : (applied.map TrailRow.content).toFinset = cs := by
    ext c
    simp only [List.mem_toFinset, List.mem_map]
    constructor
    · rintro ⟨r, hr, rfl⟩
      obtain ⟨hr, hid, hst⟩ := (hmem r).1 hr
      exact hfrom r hr hid hst
    · intro hc
      obtain ⟨r, hr, hid, hst, hrc⟩ := hto c hc
      exact ⟨r, (hmem r).2 ⟨hr, hid, hst⟩, hrc⟩
  have hmap : (applied.map fun r => r.ratio.1) = (applied.map TrailRow.content).map fun c => c.2.2 := by
    rw [List.map_map]
    exact List.map_congr_left fun r hr => (hratio r hr).symm
  calc s.effectiveSharesExact p.positionId
      = p.shares * (applied.map fun r => r.ratio.1).prod := by
        rw [Store.effectiveSharesExact, h.positionById, foldl_mul_ratio]
        rfl
    _ = p.shares * ((applied.map TrailRow.content).map fun c => c.2.2).prod := by
        rw [hmap]
    _ = p.shares * ∏ c ∈ cs, c.2.2 := by rw [← hset, List.prod_toFinset _ hnodup]

/-! ## One assessment -/

/-- One call of `assess_position`: a sweep, or with an exit fill the one before a settlement. -/
structure AssessInput where
  evidence : Evidence
  positionId : ℕ
  asOf : Date
  fill : Option ExitFill

def AssessInput.prog (i : AssessInput) : Prog Call Store Unit := do
  let _ ← assessPosition i.evidence i.positionId i.asOf i.fill
  pure ()

/-- The effective shares after a verdict that allows settlement. -/
def SharesOf (p : Position) (B : Date) (i : AssessInput) (s : Store) : Prop :=
  s.effectiveSharesExact p.positionId = p.shares * ∏ c ∈ newSplits
    (i.evidence p.symbol p.entrySession (assessStop i.asOf i.fill)) p.entrySession (assessStop i.asOf i.fill) B, c.2.2

/-- Calls may raise and the process may crash anywhere; the history is kept. -/
def assessContract (p : Position) (B : Date) : Contract Call Store where
  commit := fun _ s s' => TrailHistory p B s → TrailHistory p B s'
  mayFault := fun _ _ => True
  atCrash := TrailHistory p B

/-- Rows that are new and say nothing about the position, or are a block, keep its history. -/
theorem TrailHistory.of_rows (h : TrailHistory p B s) (hpos : s'.positions = s.positions)
    (hrows : ∀ r ∈ s'.trail.rows, r ∈ s.trail.rows ∨ r.positionId ≠ p.positionId ∨ r.status.isBlocked = true) :
    TrailHistory p B s' := by
  refine ⟨hpos ▸ h.mem, fun r hr hid => ?_⟩
  rcases hrows r hr with hr | hne | hb
  · exact h.rows r hr hid
  · exact absurd hid hne
  · unfold TrailOk
    cases hst : r.status with
    | blocked c => trivial
    | _ => rw [hst] at hb; cases hb

theorem TrailHistory.persistBlock (h : TrailHistory p B s) (key : ActionKey) (code : VerdictCode) :
    TrailHistory p B ((s.clearBlockedActionRows pid).recordBlockedAction pid key code) := by
  refine h.of_rows rfl fun r hr => ?_
  rcases Table.mem_insertOrIgnore hr with hr | rfl
  · exact Or.inl (List.mem_filter.1 hr).1
  · exact Or.inr (Or.inr rfl)

/-- The actions of another position are none of this position's business. -/
theorem TrailHistory.applyAssessed_of_ne (h : TrailHistory p B s) {row : Position} (a : Assessed)
    (hne : row.positionId ≠ p.positionId) : TrailHistory p B (applyAssessed row a s) := by
  refine h.of_rows ?_ fun r hr => ?_
  · show (applyActions _ _ _ _).positions = _
    rw [positions_applyActions, positions_applyActions, positions_applyActions]
    rfl
  rcases mem_applyActions hr with hr | ⟨e, -, hrow⟩
  · rcases mem_applyActions hr with hr | ⟨e, -, hrow⟩
    · rcases mem_applyActions hr with hr | ⟨e, -, hrow⟩
      · exact Or.inl (List.mem_filter.1 hr).1
      · exact Or.inr (Or.inl (hrow.positionId ▸ hne))
    · exact Or.inr (Or.inl (hrow.positionId ▸ hne))
  · exact Or.inr (Or.inl (hrow.positionId ▸ hne))

/-- The transaction of a cleared assessment leaves one applied row of each distinct split, and no other. -/
theorem sharesOf_applyAssessed {i : AssessInput} {a : Assessed} {ds : List CorporateActionEvent}
    (h : TrailHistory p B s) (hcls : i.evidence.Classified)
    (hB : p.entryProvenance.bind Provenance.basisAsOf = some B)
    (ha : assessEvidence p (i.evidence.fetch p.symbol p.entrySession (assessStop i.asOf i.fill)) i.asOf i.fill = .ok a)
    (ht : assessTrail p (s.positionActionTrail p.positionId) a i.fill = .ok ds) :
    TrailHistory p B (applyAssessed p a s) ∧ SharesOf p B i (applyAssessed p a s) := by
  have hfrom := assessEvidence_ok hB ha
  obtain ⟨hlisted, hreported⟩ := Evidence.fetch_events hfrom.ok
  have hev : ∀ e ∈ (i.evidence.fetch p.symbol p.entrySession (assessStop i.asOf i.fill)).events, e.Classified := by
    intro e he
    obtain ⟨x, hx, hex⟩ := hlisted e he
    exact hcls _ _ _ x hx e hex
  have happ := applyAssessed_applied h hfrom hev
  -- the key of every applied row is the key of a split of this window
  have hreal : ∀ r ∈ (applyAssessed p a s).trail.rows, r.positionId = p.positionId → r.status = .applied →
      ∃ e ∈ a.splits, e.actionKey = r.actionKey := by
    intro r hr hid hst
    rcases happ.from_applicable r hr hid hst with hr | ⟨e, he, hkey⟩
    · exact assessTrail_ok ht r (List.mem_filter.2 ⟨hr, by simpa using hid⟩) hst
    · exact ⟨e, ((hfrom.applicable e).1 he).1, hkey.symm⟩
  refine ⟨happ.history, effectiveSharesExact_eq happ.history (fun r hr hid hst => ?_) fun c hc => ?_⟩
  · obtain ⟨e, he, hkey⟩ := hreal r hr hid hst
    obtain ⟨heres, -, hwin⟩ := (hfrom.splits e).1 he
    obtain ⟨x, hx, hex⟩ := hlisted e heres
    have hok := happ.history.rows r hr hid
    simp only [TrailOk, hst] at hok
    obtain ⟨sym, ex, hk, hlt⟩ := hok
    rw [hk] at hkey
    have hcontent : r.content = (sym, ex, r.ratio.1) := by simp [TrailRow.content, hk]
    obtain ⟨-, -, hexd, -⟩ := (hev e heres).of_key hkey
    simp only [hexd, inWindow, Option.all_some, Bool.and_eq_true, decide_eq_true_eq] at hwin
    rw [hcontent]
    exact mem_newSplits.2 ⟨⟨x, hx, e, hex, (hev e heres).splitContent_eq_some.2 hkey⟩, hwin.1, hwin.2, hlt⟩
  · obtain ⟨⟨x, hx, e, hex, hcontent⟩, hlt, hle, hgt⟩ := mem_newSplits.1 hc
    have hkey := (hcls _ _ _ x hx e hex).splitContent_eq_some.1 hcontent
    obtain ⟨e', he', hkey'⟩ := hreported x hx e hex
    rw [hkey] at hkey'
    obtain ⟨hsplit, -, hexd, -⟩ := (hev e' he').of_key hkey'
    have happlicable : e' ∈ a.applicable := by
      refine (hfrom.applicable e').2 ⟨(hfrom.splits e').2 ⟨he', hsplit, ?_⟩, ?_⟩
      · simp only [hexd, inWindow, Option.all_some, Bool.and_eq_true, decide_eq_true_eq]
        exact ⟨hlt, hle⟩
      · simpa [hexd] using hgt
    obtain ⟨r, hr, hid, hst, hrk⟩ := happ.to_applied e' happlicable
    refine ⟨r, hr, hid, hst, ?_⟩
    simp [TrailRow.content, hrk, hkey']

/-- The history of a position does not depend on what else is assessed. -/
theorem assessStable_trailHistory : AssessStable (TrailHistory p B) p where
  mem h := h.mem
  block _ key code h := h.persistBlock key code
  other a hne h := h.applyAssessed_of_ne a hne

/-- Whatever the position assessed, the history is kept; a verdict on this one that allows settlement leaves its
effective shares at the product of the distinct splits. -/
theorem wp_assessPosition (i : AssessInput) (hcls : i.evidence.Classified)
    (hB : p.entryProvenance.bind Provenance.basisAsOf = some B) (hopen : p.status = .open) (h : TrailHistory p B s) :
    wp (assessContract p B) (assessPosition i.evidence i.positionId i.asOf i.fill)
      (fun v t => TrailHistory p B t ∧ (i.positionId = p.positionId → v.settleOk = true → SharesOf p B i t))
      (TrailHistory p B) s :=
  wp_assessPosition_rule assessStable_trailHistory hopen h
    fun _ _ _ ha ht => sharesOf_applyAssessed h hcls hB ha ht

/-! ## The settlement -/

section Settlement

variable {cal : Calendar} {cfg : V2Config} {feeFn : FeeFn} {es : Date} {provenance : Option Provenance}
  {divs : List CorporateActionEvent}

/-- The same ledger with no split ever applied. -/
def Store.splitFree (s : Store) : Store := { s with trail := Table.empty }

theorem effectiveSharesExact_splitFree (h : TrailHistory p B s) :
    s.splitFree.effectiveSharesExact p.positionId = p.shares := by
  have hpos : s.splitFree.positionById p.positionId = some p := h.positionById
  rw [Store.effectiveSharesExact, hpos]
  rfl

/-- Without a trail every accrual has its share count. -/
theorem accrueDividends_of_trail_nil : ∀ {evs : List CorporateActionEvent} {s : Store}, s.trail = Table.empty →
    ∃ s', accrueDividends pid es s evs = some s'
  | [], s, _ => ⟨s, rfl⟩
  | ev :: evs, s, hs => by
    have hrecord : ∃ b s', s.recordDividendEntitlement pid ev es = some (b, s') ∧ s'.trail = Table.empty := by
      have hshares : ∀ d, s.sharesAtDate pid d = some (((s.positionById pid).map fun p => (p.shares : ℚ)).getD 0) := by
        intro d
        rw [Store.sharesAtDate, Store.positionActionTrail, hs]
        rfl
      unfold Store.recordDividendEntitlement
      split
      · split
        · rw [hshares]
          dsimp only
          split
          · exact ⟨_, _, rfl, hs⟩
          · exact ⟨_, _, rfl, hs⟩
        · exact ⟨_, _, rfl, hs⟩
      · exact ⟨_, _, rfl, hs⟩
    obtain ⟨b, s', hr, hs'⟩ := hrecord
    unfold accrueDividends
    rw [hr]
    exact accrueDividends_of_trail_nil hs'

/-- What a settlement of the position needs of the calendar and of its row. -/
structure Settles (cal : Calendar) (cfg : V2Config) (s : Store) (p : Position) (es : Date) (held : ℕ) : Prop where
  held : cal.tradingDaysElapsed p.entrySession es = some held
  cooldown : ∃ cd, cal.addSessions es cfg.reentryCooldownTradingDays = some cd
  wasOpen : s.positions.rows.any (Store.openAt p.positionId) = true

theorem settles_of_closePosition (h : TrailHistory p B s) {px : ℚ} {o : ExitOutcome}
    (hc : closePosition cal cfg feeFn s p px es provenance divs = some (o, s')) (ho : o.settled = true) :
    (∃ held, Settles cal cfg s p es held) ∧ o.realizedPnlUsd =
      (computeExitEconomics (s.effectiveSharesExact p.positionId) px p.positionCost feeFn).realizedPnlUsd := by
  unfold closePosition at hc
  rw [h.positionById] at hc
  dsimp only at hc
  split at hc
  · simp only [Option.some.injEq, Prod.mk.injEq] at hc
    obtain ⟨rfl, -⟩ := hc
    cases ho
  split at hc
  · cases hc
  rename_i held hheld
  split at hc
  · simp only [Option.some.injEq, Prod.mk.injEq] at hc
    obtain ⟨rfl, -⟩ := hc
    cases ho
  · rename_i s1 hclose
    obtain ⟨s2, hs2, heq⟩ := Option.map_eq_some_iff.1 hc
    obtain ⟨rfl, -⟩ := Prod.mk.inj heq
    unfold recordExit at hs2
    dsimp only at hs2
    split at hs2
    · cases hs2
    · rename_i cd hcd
      exact ⟨⟨held, hheld, ⟨cd, hcd⟩, congrArg Prod.fst hclose⟩, rfl⟩

theorem recordExit_of_trail_nil {row : Position} {shares px : ℚ} {econ : ExitEconomics} {held : ℕ} {cd : Date}
    (htrail : s.trail = Table.empty) (hcd : cal.addSessions es cfg.reentryCooldownTradingDays = some cd) :
    ∃ s', recordExit cal cfg s row shares econ held px es divs = some s' := by
  unfold recordExit
  dsimp only
  rw [hcd]
  exact accrueDividends_of_trail_nil htrail

/-- Without a trail there is no block, and the settlement commits. -/
theorem closePosition_of_settles {held : ℕ} (hp : s.positionById p.positionId = some p) (htrail : s.trail = Table.empty)
    (hs : Settles cal cfg s p es held) (px : ℚ) :
    ∃ o s', closePosition cal cfg feeFn s p px es provenance divs = some (o, s') ∧ o.settled = true := by
  have hblocked : s.blockedActionRows p.positionId = [] := by
    rw [Store.blockedActionRows, Store.positionActionTrail, htrail]
    rfl
  obtain ⟨cd, hcd⟩ := hs.cooldown
  unfold closePosition
  rw [hp]
  dsimp only
  rw [hblocked]
  dsimp only
  rw [hs.held]
  dsimp only
  split
  · rename_i s1 hclose
    have hfalse : s.positions.rows.any (Store.openAt p.positionId) = false := congrArg Prod.fst hclose
    exact absurd (hs.wasOpen.symm.trans hfalse) (Bool.false_ne_true ∘ Eq.symm)
  · rename_i s1 hclose
    have hs1 : s1.trail = Table.empty := by
      obtain rfl := congrArg Prod.snd hclose
      exact htrail
    obtain ⟨t, ht⟩ := recordExit_of_trail_nil hs1 hcd
    exact ⟨_, t, by rw [ht]; rfl, rfl⟩

/-- The proceeds of `k` times the shares at a price are those of the shares at `k` times the price. -/
theorem realizedPnl_mul (q k px cost : ℚ) :
    (computeExitEconomics (q * k) px cost feeFn).realizedPnlUsd + feeFn.fee (q * k) px =
      (computeExitEconomics q (px * k) cost feeFn).realizedPnlUsd + feeFn.fee q (px * k) := by
  simp only [computeExitEconomics]
  ring

/-- The split-free position settles whenever the position does; before fees, at the price times the product. -/
theorem closePosition_splitFree (h : TrailHistory p B s) {k px : ℚ} {o : ExitOutcome}
    (hk : s.effectiveSharesExact p.positionId = p.shares * k)
    (hc : closePosition cal cfg feeFn s p px es provenance divs = some (o, s')) (ho : o.settled = true) :
    ∃ o' t, closePosition cal cfg feeFn s.splitFree p (px * k) es provenance divs = some (o', t) ∧
      o'.settled = true ∧ o.realizedPnlUsd + feeFn.fee (p.shares * k) px =
        o'.realizedPnlUsd + feeFn.fee p.shares (px * k) := by
  obtain ⟨⟨held, hs⟩, hpnl⟩ := settles_of_closePosition h hc ho
  have hfree : TrailHistory p B s.splitFree := ⟨h.mem, fun r hr => absurd hr List.not_mem_nil⟩
  have hs' : Settles cal cfg s.splitFree p es held := ⟨hs.held, hs.cooldown, hs.wasOpen⟩
  obtain ⟨o', t, hc', ho'⟩ := closePosition_of_settles hfree.positionById rfl hs' (px * k)
  obtain ⟨-, hpnl'⟩ := settles_of_closePosition hfree hc' ho'
  refine ⟨o', t, hc', ho', ?_⟩
  rw [hpnl, hpnl', hk, effectiveSharesExact_splitFree h]
  exact realizedPnl_mul _ _ _ _

/-- A settlement leaves the recorded cost of the position. -/
theorem positionCost_of_closePosition (h : TrailHistory p B s) {px : ℚ} {o : ExitOutcome}
    (hc : closePosition cal cfg feeFn s p px es provenance divs = some (o, s')) :
    ∀ q ∈ s'.positions.rows, q.positionId = p.positionId → q.positionCost = p.positionCost := by
  have hsame : ∀ q ∈ s.positions.rows, q.positionId = p.positionId → q.positionCost = p.positionCost := fun q hq hid =>
    congrArg Position.positionCost (s.positions.eq_of_id hq h.mem hid)
  rcases closePosition_cases hc with ⟨-, rfl⟩ | ⟨row, hs⟩
  · exact hsame
  · obtain ⟨x, -, -, hrows⟩ := hs.positions
    intro q hq hid
    rw [hrows] at hq
    obtain ⟨q', hq', rfl⟩ := mem_updateRows.1 hq
    split at hid
    · rename_i hopen
      rw [if_pos hopen]
      exact hsame q' hq' hid
    · rename_i hnot
      rw [if_neg hnot]
      exact hsame q' hq' hid

end Settlement

/-! ## Every history -/

theorem wp_assess (i : AssessInput) (hcls : i.evidence.Classified)
    (hB : p.entryProvenance.bind Provenance.basisAsOf = some B) (hopen : p.status = .open) (h : TrailHistory p B s) :
    wp (assessContract p B) i.prog (fun _ => TrailHistory p B) (TrailHistory p B) s :=
  wp_then (wp_assessPosition i hcls hB hopen h) fun _ _ ht => ht.1

/-- After any history of assessments, with any listings, faults and crashes: a verdict that allows settlement has the
entry shares times the product of the distinct reported splits behind the basis as effective shares, and the position is
settled like the split-free one at the price times that product, at its recorded cost. -/
theorem split_neutrality {s₀ : Store} {segs : List (Seg AssessInput Call Store)} (hp : p ∈ s₀.positions.rows)
    (hopen : p.status = .open) (hB : p.entryProvenance.bind Provenance.basisAsOf = some B)
    (hnew : s₀.positionActionTrail p.positionId = []) (hrun : Run AssessInput.prog s₀ segs s)
    (hcls : ∀ g ∈ segs, g.input.evidence.Classified) (i : AssessInput) (hi : i.evidence.Classified)
    (hid : i.positionId = p.positionId) {es : List (Event Call Store)} {v : Verdict}
    (hexec : Exec (assessPosition i.evidence i.positionId i.asOf i.fill) s es s' (.done v)) (hok : v.settleOk = true) :
    let stop := assessStop i.asOf i.fill
    let k := ∏ c ∈ newSplits (i.evidence p.symbol p.entrySession stop) p.entrySession stop B, c.2.2
    s'.positionById p.positionId = some p ∧ s'.effectiveSharesExact p.positionId = p.shares * k ∧
      ∀ (cal : Calendar) (cfg : V2Config) (feeFn : FeeFn) (px : ℚ) (exitSession : Date) (provenance : Option Provenance)
        (o : ExitOutcome) (t : Store),
        closePosition cal cfg feeFn s' p px exitSession provenance v.dividends = some (o, t) →
        (∀ q ∈ t.positions.rows, q.positionId = p.positionId → q.positionCost = p.positionCost) ∧
          (o.settled = true → ∃ o' t',
            closePosition cal cfg feeFn s'.splitFree p (px * k) exitSession provenance v.dividends = some (o', t') ∧
              o'.settled = true ∧ (feeFn = zeroFee → o.realizedPnlUsd = o'.realizedPnlUsd) ∧
              o.realizedPnlUsd + feeFn.fee (p.shares * k) px =
                o'.realizedPnlUsd + feeFn.fee p.shares (px * k)) := by
  intro stop k
  have h0 : TrailHistory p B s₀ := by
    refine ⟨hp, fun r hr hrid => ?_⟩
    have hmem : r ∈ s₀.positionActionTrail p.positionId := List.mem_filter.2 ⟨hr, by simpa using hrid⟩
    rw [hnew] at hmem
    cases hmem
  have hs : TrailHistory p B s := (Run.invariant (fun _ => assessContract p B) (TrailHistory p B)
    (fun i _ => i.evidence.Classified) h0 (fun _ _ h => h) (fun i _ h hc => wp_assess i hc hB hopen h) hrun
    fun g hg => ⟨hcls g hg, fun _ _ => ⟨fun _ => trivial, fun _ => trivial⟩⟩).1
  have hend := (wp_sound hexec (wp_assessPosition i hi hB hopen hs) fun _ _ => ⟨fun _ => trivial, fun _ => trivial⟩).2
  obtain ⟨hs', hshares⟩ := hend
  have hk : s'.effectiveSharesExact p.positionId = p.shares * k := hshares hid hok
  refine ⟨hs'.positionById, hk, fun cal cfg feeFn px exitSession provenance o t hc => ?_⟩
  refine ⟨positionCost_of_closePosition hs' hc, fun ho => ?_⟩
  obtain ⟨o', t', hc', ho', hpnl⟩ := closePosition_splitFree hs' hk hc ho
  refine ⟨o', t', hc', ho', fun hfee => ?_, hpnl⟩
  subst hfee
  have hzero : ∀ q px : ℚ, zeroFee.fee q px = 0 := fun _ _ => rfl
  simpa [hzero] using hpnl

/-! ## A sample -/

/-- Nine shares of session 30, priced on the basis of day 31. -/
def nineShares : Position where
  positionId := 1
  episodeId := ⟨"ACME", ["p", "q"], 27, 28⟩
  symbol := "ACME"
  status := .open
  entrySession := 30
  targetExitSession := 44
  entryPrice := 100
  shares := 9
  positionCost := 900
  entryFee := 0
  entryProvenance := some ⟨some 31, some "RAW"⟩
  exit := none

def nineSharesStore : Store := { Store.init 100000 with positions := ⟨⟨[nineShares], List.nodup_singleton _⟩, rfl⟩ }

/-- A provider's record of a split. -/
def splitRecord (providerType source id : String) (ex : Date) (new old : ℚ) : CorporateActionEvent :=
  classifyAlpacaRecord "acme" providerType source { id := id, exDate := some ex, newRate := some new, oldRate := some old }

/-- A split that the basis reflects, a later one, and from day 40 on a third. -/
def splitListing (source id : String) (stop : Date) : SourceAnswer :=
  .listing source (splitRecord "forward_splits" source "r0" 29 3 1 :: splitRecord "forward_splits" source id 35 2 1 ::
    splitRecord "forward_splits" source (id ++ "-again") 35 2 1 ::
      if 40 ≤ stop then [splitRecord "reverse_splits" source "r2" 38 1 4] else [])

/-- Two sources with ids of their own. -/
def twoListings : Evidence := fun _ _ stop => [splitListing "alpaca" "a1" stop, splitListing "second" "b7" stop]

theorem splitListing_classified {source id : String} {stop : Date} :
    ∀ e ∈ (splitListing source id stop).events, e.Classified := by
  intro e he
  have hrecord : ∃ providerType rid ex new old, e = splitRecord providerType source rid ex new old := by
    simp only [splitListing, SourceAnswer.events, List.mem_cons] at he
    rcases he with rfl | rfl | rfl | he
    · exact ⟨_, _, _, _, _, rfl⟩
    · exact ⟨_, _, _, _, _, rfl⟩
    · exact ⟨_, _, _, _, _, rfl⟩
    · split at he
      · exact ⟨_, _, _, _, _, List.mem_singleton.1 he⟩
      · cases he
  obtain ⟨providerType, rid, ex, new, old, rfl⟩ := hrecord
  exact classifyAlpacaRecord_classified _ _ _ _

theorem twoListings_classified : twoListings.Classified := by
  intro symbol start stop a ha
  simp only [twoListings, List.mem_cons, List.not_mem_nil, or_false] at ha
  rcases ha with rfl | rfl
  · exact splitListing_classified
  · exact splitListing_classified

/-- A sweep, one that crashes before its write, and the next. -/
def sweeps : List (AssessInput × List Fault) :=
  [(⟨twoListings, 1, 36, none⟩, []), (⟨twoListings, 1, 41, none⟩, [.none, .none, .none, .crash]),
    (⟨twoListings, 1, 41, none⟩, [])]

theorem split_neutrality_sample :
    let s := (runAll AssessInput.prog sweeps nineSharesStore).2
    let settlement : AssessInput := ⟨twoListings, 1, 44, some ⟨44, some 45, some "RAW"⟩⟩
    let r := exec (assessPosition settlement.evidence settlement.positionId settlement.asOf settlement.fill) [] s
    r.2.1.effectiveSharesExact 1 = 9 * ∏ c ∈ newSplits (twoListings "ACME" 30 45) 30 45 31, c.2.2 ∧
      ∃ o t, closePosition (.weekdays 100) {} zeroFee r.2.1 nineShares 50 44 none [] = some (o, t) ∧
        o.settled = true ∧ ∃ o' t', closePosition (.weekdays 100) {} zeroFee r.2.1.splitFree nineShares
          (50 * ∏ c ∈ newSplits (twoListings "ACME" 30 45) 30 45 31, c.2.2) 44 none [] = some (o', t') ∧
            o.realizedPnlUsd = o'.realizedPnlUsd := by
  intro s settlement r
  have hdone : ∃ v, r.2.2 = .done v ∧ v.settleOk = true ∧ v.dividends = [] := by
    have hcheck : r.2.2.returned (fun v => v.settleOk && v.dividends.isEmpty) = true := by decide +kernel
    obtain ⟨v, hv, hcheck⟩ := Outcome.exists_of_returned hcheck
    simp only [Bool.and_eq_true, List.isEmpty_iff] at hcheck
    exact ⟨v, hv, hcheck.1, hcheck.2⟩
  obtain ⟨v, hv, hok, hdivs⟩ := hdone
  have hcls : ∀ g ∈ (runAll AssessInput.prog sweeps nineSharesStore).1, g.input.evidence.Classified := by
    intro g hg
    have hinput := mem_runAll_input hg
    simp only [sweeps, List.map_cons, List.map_nil, List.mem_cons, List.not_mem_nil, or_false] at hinput
    rcases hinput with h | h | h <;> rw [h] <;> exact twoListings_classified
  have hexec : Exec (assessPosition settlement.evidence settlement.positionId settlement.asOf settlement.fill) s r.1
      r.2.1 (.done v) := hv ▸ exec_sound _ [] s
  obtain ⟨-, hshares, hclose⟩ := split_neutrality (p := nineShares) (B := 31)
    (List.mem_singleton.2 rfl) rfl rfl rfl (runAll_sound _ _ nineSharesStore) hcls settlement twoListings_classified rfl hexec hok
  refine ⟨hshares, ?_⟩
  rw [hdivs] at hclose
  have hsettles : ∃ o t, closePosition (.weekdays 100) {} zeroFee r.2.1 nineShares 50 44 none [] = some (o, t) ∧
      o.settled = true := by
    have hsome : ((closePosition (.weekdays 100) {} zeroFee r.2.1 nineShares 50 44 none []).map (·.1.settled)) =
        some true := by decide +kernel
    obtain ⟨⟨o, t⟩, hc, ho⟩ := Option.map_eq_some_iff.1 hsome
    exact ⟨o, t, hc, ho⟩
  obtain ⟨o, t, hc, ho⟩ := hsettles
  obtain ⟨o', t', hc', -, hpnl, -⟩ := (hclose _ _ _ _ _ _ o t hc).2 ho
  exact ⟨o, t, hc, ho, o', t', hc', hpnl rfl⟩

end TalonX.V2
