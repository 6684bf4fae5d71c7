import Mathlib.Data.List.Induction
import TalonX.Piv.ShadowLedger

/-!
# The indexes of the shadow ledger

The three indexes agree with the records, over any sequence of calls and restarts, and a symbol has one live trade.

- `Indexes`: an index by symbol over the records of one status; `Indexes.replace` when one live record changes;
- `Coherent`: what holds between calls; `Coherent.replace` and `Coherent.reload`;
- `coherent_runShadow`, and `lookup_pending`, `lookup_open`: what an index finds.
-/

set_option autoImplicit false

namespace TalonX.Piv.Shadow

open Clock Transact
open TalonX.Core (PyFloat)

/-! ## One index -/

/-- The index gives the records of status `s` by their symbols. -/
def Indexes (index : String → Option String) (rows : List ShadowPosition) (s : Status) : Prop :=
  ∀ symbol i, index symbol = some i ↔ ∃ p ∈ rows, p.shadowId = i ∧ p.symbol = symbol ∧ p.status = s

/-- At most one live record for a symbol. -/
def SingleLive (rows : List ShadowPosition) : Prop :=
  ∀ p ∈ rows, ∀ q ∈ rows, p.live = true → q.live = true → p.symbol = q.symbol → p = q

theorem live_iff {p : ShadowPosition} : p.live = true ↔ p.status = .pendingFill ∨ p.status = .opened := by
  simp [ShadowPosition.live]

/-- `p'` takes the place of `p`. -/
structure Replaced (rows rows' : List ShadowPosition) (p p' : ShadowPosition) : Prop where
  mem : p ∈ rows
  ids : ∀ q ∈ rows, q.shadowId = p.shadowId → q = p
  rows : ∀ q, q ∈ rows' ↔ (q ∈ rows ∧ q.shadowId ≠ p.shadowId) ∨ q = p'
  shadowId : p'.shadowId = p.shadowId
  decisionId : p'.decisionId = p.decisionId
  symbol : p'.symbol = p.symbol

theorem Indexes.replace {index index' : String → Option String} {rows rows' : List ShadowPosition} {s : Status}
    {p p' : ShadowPosition} (h : Indexes index rows s) (hs : s = .pendingFill ∨ s = .opened) (hsingle : SingleLive rows)
    (hlive : p.live = true) (hr : Replaced rows rows' p p') (hout : ∀ symbol, symbol ≠ p.symbol → index' symbol = index symbol)
    (hin : index' p.symbol = if p'.status = s then some p.shadowId else none) : Indexes index' rows' s := by
  intro symbol i
  by_cases hsym : symbol = p.symbol
  · subst hsym
    rw [hin]
    constructor
    · intro hi
      split at hi
      · next hst =>
        exact ⟨p', (hr.rows p').2 (.inr rfl), hr.shadowId.trans (Option.some.inj hi), hr.symbol, hst⟩
      · cases hi
    · rintro ⟨q, hq, hid, hqs, hst⟩
      rcases (hr.rows q).1 hq with ⟨hq, hne⟩ | rfl
      · -- another live record of the symbol would be `p`
        have hqlive : q.live = true := live_iff.2 (hst ▸ hs)
        exact absurd (hsingle q hq p hr.mem hqlive hlive hqs ▸ rfl) hne
      · rw [if_pos hst, ← hid, hr.shadowId]
  · rw [hout symbol hsym, h symbol i]
    constructor
    · rintro ⟨q, hq, hid, hqs, hst⟩
      have hne : q.shadowId ≠ p.shadowId := fun he => hsym (by rw [← hqs, hr.ids q hq he])
      exact ⟨q, (hr.rows q).2 (.inl ⟨hq, hne⟩), hid, hqs, hst⟩
    · rintro ⟨q, hq, hid, hqs, hst⟩
      rcases (hr.rows q).1 hq with ⟨hq, -⟩ | rfl
      · exact ⟨q, hq, hid, hqs, hst⟩
      · exact absurd (hqs.symm.trans hr.symbol) hsym

theorem SingleLive.replace {rows rows' : List ShadowPosition} {p p' : ShadowPosition} (h : SingleLive rows)
    (hlive : p.live = true) (hr : Replaced rows rows' p p') : SingleLive rows' := by
  intro q hq r hrr hql hrl hsym
  rcases (hr.rows q).1 hq with ⟨hq, hqne⟩ | rfl
  · rcases (hr.rows r).1 hrr with ⟨hrr, -⟩ | rfl
    · exact h q hq r hrr hql hrl hsym
    · exact absurd (h q hq p hr.mem hql hlive (hsym.trans hr.symbol) ▸ rfl) hqne
  · rcases (hr.rows r).1 hrr with ⟨hrr, hrne⟩ | rfl
    · exact absurd (h r hrr p hr.mem hrl hlive (hsym.symm.trans hr.symbol) ▸ rfl) hrne
    · rfl

/-- A dictionary over records that are unique under their keys. -/
theorem indexOf_eq_some {rows : List ShadowPosition} {key : ShadowPosition → String} {c : ShadowPosition → Bool}
    (h : ∀ p ∈ rows, ∀ q ∈ rows, c p = true → c q = true → key p = key q → p = q) {k i : String} :
    indexOf rows key c k = some i ↔ ∃ p ∈ rows, p.shadowId = i ∧ key p = k ∧ c p = true := by
  unfold indexOf
  constructor
  · intro hi
    obtain ⟨p, hp, rfl⟩ := Option.map_eq_some_iff.1 hi
    have hc := List.find?_some hp
    rw [Bool.and_eq_true, decide_eq_true_eq] at hc
    exact ⟨p, List.mem_reverse.1 (List.mem_of_find?_eq_some hp), rfl, hc.2, hc.1⟩
  · rintro ⟨p, hp, rfl, hk, hc⟩
    cases hf : rows.reverse.find? fun r => c r && key r = k with
    | none =>
      have := List.find?_eq_none.1 hf p (List.mem_reverse.2 hp)
      simp [hc, hk] at this
    | some q =>
      have hq := List.find?_some hf
      rw [Bool.and_eq_true, decide_eq_true_eq] at hq
      rw [h q (List.mem_reverse.1 (List.mem_of_find?_eq_some hf)) p hp hq.1 hc (hq.2.trans hk.symm)]
      rfl

theorem mem_sortedRows {t : Table ShadowPosition.shadowId} {p : ShadowPosition} :
    p ∈ (sortedRows t).rows ↔ p ∈ t.rows := (List.perm_insertionSort _ t.rows).mem_iff

/-! ## The ledger between calls -/

structure Coherent (L : ShadowLedger) : Prop where
  id : ∀ p ∈ L.positions.rows, p.shadowId = "shadow_" ++ p.decisionId
  pending : Indexes L.pendingBySymbol L.positions.rows .pendingFill
  opened : Indexes L.openBySymbol L.positions.rows .opened
  decided : ∀ d i, L.byDecision d = some i ↔ ∃ p ∈ L.positions.rows, p.shadowId = i ∧ p.decisionId = d
  single : SingleLive L.positions.rows
  file : ∀ p, p ∈ L.file.rows ↔ p ∈ L.positions.rows

theorem shadowId_injective {d d' : String} (h : "shadow_" ++ d = "shadow_" ++ d') : d = d' := by
  have := congrArg String.toList h
  rw [String.toList_append, String.toList_append] at this
  exact String.toList_inj.1 (List.append_cancel_left this)

namespace Coherent

variable {L L' : ShadowLedger}

theorem eq_of_decisionId (h : Coherent L) {p q : ShadowPosition} (hp : p ∈ L.positions.rows)
    (hq : q ∈ L.positions.rows) (hd : p.decisionId = q.decisionId) : p = q :=
  L.positions.eq_of_key hp hq (by rw [h.id p hp, h.id q hq, hd])

/-- One live record was changed, and the indexes with it. -/
theorem replace (h : Coherent L) {p p' : ShadowPosition} (hlive : p.live = true)
    (hr : Replaced L.positions.rows L'.positions.rows p p')
    (hpending : ∀ symbol, symbol ≠ p.symbol → L'.pendingBySymbol symbol = L.pendingBySymbol symbol)
    (hpending' : L'.pendingBySymbol p.symbol = if p'.status = .pendingFill then some p.shadowId else none)
    (hopen : ∀ symbol, symbol ≠ p.symbol → L'.openBySymbol symbol = L.openBySymbol symbol)
    (hopen' : L'.openBySymbol p.symbol = if p'.status = .opened then some p.shadowId else none)
    (hdecision : L'.byDecision = L.byDecision) (hfile : L'.file = sortedRows L'.positions) : Coherent L' where
  id q hq := by
    rcases (hr.rows q).1 hq with ⟨hq, -⟩ | rfl
    · exact h.id q hq
    · rw [hr.shadowId, hr.decisionId]
      exact h.id p hr.mem
  pending := h.pending.replace (.inl rfl) h.single hlive hr hpending hpending'
  opened := h.opened.replace (.inr rfl) h.single hlive hr hopen hopen'
  decided d i := by
    rw [hdecision, h.decided d i]
    constructor
    · rintro ⟨q, hq, hid, hqd⟩
      by_cases he : q.shadowId = p.shadowId
      · obtain rfl := hr.ids q hq he
        exact ⟨p', (hr.rows p').2 (.inr rfl), hr.shadowId.trans hid, hr.decisionId.trans hqd⟩
      · exact ⟨q, (hr.rows q).2 (.inl ⟨hq, he⟩), hid, hqd⟩
    · rintro ⟨q, hq, hid, hqd⟩
      rcases (hr.rows q).1 hq with ⟨hq, -⟩ | rfl
      · exact ⟨q, hq, hid, hqd⟩
      · exact ⟨p, hr.mem, hr.shadowId.symm.trans hid, hr.decisionId.symm.trans hqd⟩
  single := h.single.replace hlive hr
  file q := by rw [hfile, mem_sortedRows]

/-- What an index finds. -/
theorem lookup_index {index : String → Option String} {s : Status}
    (hi : Indexes index L.positions.rows s) {symbol : String} {p : ShadowPosition} :
    L.lookup (index symbol) = some p ↔ p ∈ L.positions.rows ∧ p.symbol = symbol ∧ p.status = s := by
  unfold ShadowLedger.lookup
  rw [Option.bind_eq_some_iff]
  constructor
  · rintro ⟨i, hidx, hget⟩
    obtain ⟨q, hq, hid, hsym, hst⟩ := (hi symbol i).1 hidx
    obtain ⟨hp, hpi⟩ := Table.get_eq_some.1 hget
    obtain rfl := L.positions.eq_of_key hp hq (hpi.trans hid.symm)
    exact ⟨hp, hsym, hst⟩
  · rintro ⟨hp, hsym, hst⟩
    exact ⟨p.shadowId, (hi symbol p.shadowId).2 ⟨p, hp, rfl, hsym, hst⟩, Table.get_eq_some.2 ⟨hp, rfl⟩⟩

theorem lookup_pending (h : Coherent L) {symbol : String} {p : ShadowPosition} :
    L.lookup (L.pendingBySymbol symbol) = some p ↔
      p ∈ L.positions.rows ∧ p.symbol = symbol ∧ p.status = .pendingFill := lookup_index h.pending

theorem lookup_open (h : Coherent L) {symbol : String} {p : ShadowPosition} :
    L.lookup (L.openBySymbol symbol) = some p ↔
      p ∈ L.positions.rows ∧ p.symbol = symbol ∧ p.status = .opened := lookup_index h.opened

/-! ### The calls -/

variable {policy : HorizonPolicy} {config : ExecutionConfig}

theorem mem_assign (L : ShadowLedger) {p q : ShadowPosition} :
    q ∈ (L.assign p).positions.rows ↔ (q ∈ L.positions.rows ∧ q.shadowId ≠ p.shadowId) ∨ q = p :=
  Table.mem_upsert_of_replace fun _ hx => if_pos hx

theorem replaced_assign {p p' : ShadowPosition} (hp : p ∈ L.positions.rows) (hid : p'.shadowId = p.shadowId)
    (hdecision : p'.decisionId = p.decisionId) (hsymbol : p'.symbol = p.symbol) :
    Replaced L.positions.rows (L.assign p').positions.rows p p' where
  mem := hp
  ids q hq he := L.positions.eq_of_key hq hp he
  rows q := by rw [mem_assign, hid]
  shadowId := hid
  decisionId := hdecision
  symbol := hsymbol

theorem pending_of_opened (h : Coherent L) {p : ShadowPosition} (hp : p ∈ L.positions.rows) (hs : p.status = .opened) :
    L.pendingBySymbol p.symbol = none := by
  cases hi : L.pendingBySymbol p.symbol with
  | none => rfl
  | some i =>
    obtain ⟨q, hq, -, hsym, hst⟩ := (h.pending p.symbol i).1 hi
    obtain rfl := h.single q hq p hp (live_iff.2 (.inl hst)) (live_iff.2 (.inr hs)) hsym
    rw [hs] at hst
    cases hst

theorem opened_of_pending (h : Coherent L) {p : ShadowPosition} (hp : p ∈ L.positions.rows)
    (hs : p.status = .pendingFill) : L.openBySymbol p.symbol = none := by
  cases hi : L.openBySymbol p.symbol with
  | none => rfl
  | some i =>
    obtain ⟨q, hq, -, hsym, hst⟩ := (h.opened p.symbol i).1 hi
    obtain rfl := h.single q hq p hp (live_iff.2 (.inr hst)) (live_iff.2 (.inl hs)) hsym
    rw [hs] at hst
    cases hst

/-- A pending record is filled. -/
theorem fill (h : Coherent L) {p : ShadowPosition} (hp : p ∈ L.positions.rows) (hs : p.status = .pendingFill) (b : Bar)
    (deadline : Option Utc) :
    Coherent (((L.assign (p.fill config b deadline)).setPending p.symbol none).setOpen p.symbol
      (some p.shadowId)).save :=
  h.replace (live_iff.2 (.inl hs)) (replaced_assign hp rfl rfl rfl) (fun _ hne => Function.update_of_ne hne _ _)
    (Function.update_self _ _ _) (fun _ hne => Function.update_of_ne hne _ _) (Function.update_self _ _ _) rfl rfl

/-- A pending record ends unresolved. -/
theorem unresolvePending (h : Coherent L) {p : ShadowPosition} (hp : p ∈ L.positions.rows)
    (hs : p.status = .pendingFill) (quality reason : String) :
    Coherent ((L.assign (p.unresolve quality reason)).setPending p.symbol none).save :=
  h.replace (live_iff.2 (.inl hs)) (replaced_assign hp rfl rfl rfl) (fun _ hne => Function.update_of_ne hne _ _)
    (Function.update_self _ _ _) (fun _ _ => rfl) (h.opened_of_pending hp hs) rfl rfl

/-- An open record ends unresolved. -/
theorem unresolveOpen (h : Coherent L) {p : ShadowPosition} (hp : p ∈ L.positions.rows) (hs : p.status = .opened)
    (quality reason : String) : Coherent ((L.assign (p.unresolve quality reason)).setOpen p.symbol none).save :=
  h.replace (live_iff.2 (.inr hs)) (replaced_assign hp rfl rfl rfl) (fun _ _ => rfl) (h.pending_of_opened hp hs)
    (fun _ hne => Function.update_of_ne hne _ _) (Function.update_self _ _ _) rfl rfl

/-- An open record sees one more bar. -/
theorem observe (h : Coherent L) {p : ShadowPosition} (hp : p ∈ L.positions.rows) (hs : p.status = .opened) (b : Bar) :
    Coherent (L.assign (p.observe b)).save := by
  refine h.replace (live_iff.2 (.inr hs)) (replaced_assign hp rfl rfl rfl) (fun _ _ => rfl) ?_ (fun _ _ => rfl) ?_ rfl rfl
  · rw [if_neg (by rw [ShadowPosition.observe, hs]; decide)]
    exact h.pending_of_opened hp hs
  · rw [if_pos (by rw [ShadowPosition.observe, hs])]
    exact (h.opened p.symbol p.shadowId).2 ⟨p, hp, rfl, rfl, hs⟩

/-- The ledger after a close: the index entry goes. -/
theorem closePosition_eq (h : Coherent L) {p seen : ShadowPosition} (hp : p ∈ L.positions.rows)
    (hs : p.status = .opened) (hid : seen.shadowId = p.shadowId) (hsymbol : seen.symbol = p.symbol) (t : Utc)
    (price : PyFloat) (reason : String) :
    L.closePosition config seen t price reason =
      ((L.assign (seen.close config t price reason)).setOpen p.symbol none).save := by
  have hopen : (L.assign (seen.close config t price reason)).openBySymbol seen.symbol = some seen.shadowId := by
    rw [hsymbol, hid]
    exact (h.opened p.symbol p.shadowId).2 ⟨p, hp, rfl, rfl, hs⟩
  rw [ShadowLedger.closePosition, if_pos hopen, hsymbol]

theorem closePosition (h : Coherent L) {p seen : ShadowPosition} (hp : p ∈ L.positions.rows) (hs : p.status = .opened)
    (hid : seen.shadowId = p.shadowId) (hdecision : seen.decisionId = p.decisionId) (hsymbol : seen.symbol = p.symbol)
    (t : Utc) (price : PyFloat) (reason : String) : Coherent (L.closePosition config seen t price reason) := by
  rw [h.closePosition_eq hp hs hid hsymbol]
  exact h.replace (live_iff.2 (.inr hs)) (replaced_assign hp hid hdecision hsymbol) (fun _ _ => rfl)
    (h.pending_of_opened hp hs) (fun _ hne => Function.update_of_ne hne _ _) (Function.update_self _ _ _) rfl rfl

theorem fillPending (h : Coherent L) {symbol : String} {b : Bar} (hL : L.fillPending policy config symbol b = some L') :
    Coherent L' := by
  unfold ShadowLedger.fillPending at hL
  split at hL
  · obtain rfl := Option.some.inj hL
    exact h
  · next p hp =>
    obtain ⟨hmem, rfl, hs⟩ := h.lookup_pending.1 hp
    split at hL
    · obtain ⟨deadline, -, rfl⟩ := Option.map_eq_some_iff.1 hL
      exact h.fill hmem hs b deadline
    · obtain rfl := Option.some.inj hL
      exact h

theorem monitorOpen (h : Coherent L) (symbol : String) (b : Bar) : Coherent (L.monitorOpen config symbol b) := by
  unfold ShadowLedger.monitorOpen
  split
  · exact h
  · next p hp =>
    obtain ⟨hmem, rfl, hs⟩ := h.lookup_open.1 hp
    have hid : (p.observe b).shadowId = p.shadowId := rfl
    dsimp only
    split
    · exact h.closePosition hmem hs hid rfl rfl _ _ _
    · exact h.observe hmem hs b

theorem onBar (h : Coherent L) (symbol : String) (b : Bar) : Coherent (L.onBar policy config symbol b) := by
  unfold ShadowLedger.onBar
  split
  · exact h
  · next hL => exact (h.fillPending hL).monitorOpen symbol b

theorem forceOpen (h : Coherent L) (symbol : String) (t : Utc) (price : Option PyFloat) (reason : String) :
    Coherent (L.forceOpen config symbol t price reason).1 := by
  unfold ShadowLedger.forceOpen
  split
  · exact h
  · next p hp =>
    obtain ⟨hmem, rfl, hs⟩ := h.lookup_open.1 hp
    dsimp only
    split
    · exact h.closePosition hmem hs rfl rfl rfl _ _ _
    · exact h.unresolveOpen hmem hs _ _

theorem forceClose (h : Coherent L) (symbol : String) (t : Utc) (price : Option PyFloat) (reason : String) :
    Coherent (L.forceClose config symbol t price reason) := by
  have h : Coherent (L.forceOpen config symbol t price reason).1 := h.forceOpen symbol t price reason
  unfold ShadowLedger.forceClose
  split
  next hforced =>
  rw [hforced] at h
  split
  · exact h
  · next p hp =>
    obtain ⟨hmem, rfl, hs⟩ := h.lookup_pending.1 hp
    exact h.unresolvePending hmem hs _ _

/-- A decision that is not known has no record, under any name. -/
theorem fresh (h : Coherent L) {d : Decision} {source : String} (hnew : L.lookup (L.byDecision d.decisionId) = none) :
    ∀ q ∈ L.positions.rows, q.shadowId ≠ (d.position source).shadowId := by
  intro q hq he
  have hd : q.decisionId = d.decisionId := shadowId_injective ((h.id q hq).symm.trans he)
  rw [(h.decided d.decisionId q.shadowId).2 ⟨q, hq, rfl, hd⟩, ShadowLedger.lookup, Option.bind_some,
    Table.get_eq_none] at hnew
  exact hnew q hq rfl

/-- A recommendation that is recorded, for a symbol without a live trade. -/
theorem record (h : Coherent L) {d : Decision} {source : String} (hnew : L.lookup (L.byDecision d.decisionId) = none)
    (hpending : L.pendingBySymbol d.ticker = none) (hopen : L.openBySymbol d.ticker = none) :
    Coherent (ShadowLedger.save
      { (L.assign (d.position source)).setPending d.ticker (some (d.position source).shadowId) with
        byDecision := Function.update L.byDecision d.decisionId (some (d.position source).shadowId) }) := by
  have hrows : ∀ q, q ∈ (L.assign (d.position source)).positions.rows ↔
      (q ∈ L.positions.rows ∧ q.shadowId ≠ (d.position source).shadowId) ∨ q = d.position source := fun q =>
    mem_assign L
  have hfreeId : ∀ q ∈ L.positions.rows, q.shadowId ≠ (d.position source).shadowId := h.fresh hnew
  have hfree : ∀ q ∈ L.positions.rows, q.decisionId ≠ d.decisionId := fun q hq he =>
    hfreeId q hq ((h.id q hq).trans (congrArg _ he))
  have hnolive : ∀ q ∈ L.positions.rows, q.live = true → q.symbol ≠ d.ticker := fun q hq hl hsym => by
    rcases live_iff.1 hl with hs | hs
    · rw [(h.pending d.ticker q.shadowId).2 ⟨q, hq, rfl, hsym, hs⟩] at hpending
      cases hpending
    · rw [(h.opened d.ticker q.shadowId).2 ⟨q, hq, rfl, hsym, hs⟩] at hopen
      cases hopen
  refine ⟨fun q hq => ?_, fun symbol i => ?_, fun symbol i => ?_, fun d' i => ?_, fun q hq r hr hql hrl hsym => ?_,
    fun _ => mem_sortedRows⟩
  · rcases (hrows q).1 hq with ⟨hq, -⟩ | rfl
    · exact h.id q hq
    · rfl
  · show Function.update L.pendingBySymbol d.ticker _ symbol = some i ↔ _
    by_cases hsym : symbol = d.ticker
    · subst hsym
      rw [Function.update_self]
      constructor
      · intro hi
        exact ⟨d.position source, (hrows _).2 (.inr rfl), Option.some.inj hi, rfl, rfl⟩
      · rintro ⟨q, hq, hid, hqs, hst⟩
        rcases (hrows q).1 hq with ⟨hq, -⟩ | rfl
        · exact absurd hqs (hnolive q hq (live_iff.2 (.inl hst)))
        · rw [hid]
    · rw [Function.update_of_ne hsym, h.pending symbol i]
      constructor
      · rintro ⟨q, hq, hid, hqs, hst⟩
        exact ⟨q, (hrows q).2 (.inl ⟨hq, hfreeId q hq⟩), hid, hqs, hst⟩
      · rintro ⟨q, hq, hid, hqs, hst⟩
        rcases (hrows q).1 hq with ⟨hq, -⟩ | rfl
        · exact ⟨q, hq, hid, hqs, hst⟩
        · exact absurd hqs.symm hsym
  · show L.openBySymbol symbol = some i ↔ _
    rw [h.opened symbol i]
    constructor
    · rintro ⟨q, hq, hid, hqs, hst⟩
      exact ⟨q, (hrows q).2 (.inl ⟨hq, hfreeId q hq⟩), hid, hqs, hst⟩
    · rintro ⟨q, hq, hid, hqs, hst⟩
      rcases (hrows q).1 hq with ⟨hq, -⟩ | rfl
      · exact ⟨q, hq, hid, hqs, hst⟩
      · cases hst
  · show Function.update L.byDecision d.decisionId _ d' = some i ↔ _
    by_cases hd : d' = d.decisionId
    · subst hd
      rw [Function.update_self]
      constructor
      · intro hi
        exact ⟨d.position source, (hrows _).2 (.inr rfl), Option.some.inj hi, rfl⟩
      · rintro ⟨q, hq, hid, hqd⟩
        rcases (hrows q).1 hq with ⟨hq, -⟩ | rfl
        · exact absurd hqd (hfree q hq)
        · rw [hid]
    · rw [Function.update_of_ne hd, h.decided d' i]
      constructor
      · rintro ⟨q, hq, hid, hqd⟩
        exact ⟨q, (hrows q).2 (.inl ⟨hq, hfreeId q hq⟩), hid, hqd⟩
      · rintro ⟨q, hq, hid, hqd⟩
        rcases (hrows q).1 hq with ⟨hq, -⟩ | rfl
        · exact ⟨q, hq, hid, hqd⟩
        · exact absurd hqd.symm hd
  · rcases (hrows q).1 hq with ⟨hq, -⟩ | rfl
    · rcases (hrows r).1 hr with ⟨hr, -⟩ | rfl
      · exact h.single q hq r hr hql hrl hsym
      · exact absurd hsym (hnolive q hq hql)
    · rcases (hrows r).1 hr with ⟨hr, -⟩ | rfl
      · exact absurd hsym.symm (hnolive r hr hrl)
      · rfl

theorem considerEntry (h : Coherent L) (d : Decision) (source : String) : Coherent (L.considerEntry d source) := by
  unfold ShadowLedger.considerEntry
  split
  · exact h
  · split
    · exact h
    · next hnew =>
      split
      · exact h
      · next hlive =>
        simp only [Bool.or_eq_true, not_or, Option.not_isSome_iff_eq_none] at hnew hlive
        exact h.record hnew hlive.1 hlive.2

/-- A restart finds the records, and rebuilds the indexes. -/
theorem reload (h : Coherent L) : Coherent (ShadowLedger.reload L.file) := by
  have hsingle : SingleLive L.file.rows := fun p hp q hq => h.single p ((h.file p).1 hp) q ((h.file q).1 hq)
  have hindex : ∀ s : Status, s = .pendingFill ∨ s = .opened →
      Indexes (indexOf L.file.rows (·.symbol) (·.status = s)) L.file.rows s := fun s hs symbol i => by
    have hunique : ∀ p ∈ L.file.rows, ∀ q ∈ L.file.rows, decide (p.status = s) = true → decide (q.status = s) = true →
        p.symbol = q.symbol → p = q := fun p hp q hq hps hqs hsym => by
      rw [decide_eq_true_eq] at hps hqs
      exact hsingle p hp q hq (live_iff.2 (hps ▸ hs)) (live_iff.2 (hqs ▸ hs)) hsym
    rw [indexOf_eq_some hunique]
    simp only [decide_eq_true_eq]
  have hdecided : ∀ p ∈ L.file.rows, ∀ q ∈ L.file.rows, true = true → true = true →
      p.decisionId = q.decisionId → p = q := fun p hp q hq _ _ hd =>
    h.eq_of_decisionId ((h.file p).1 hp) ((h.file q).1 hq) hd
  refine ⟨fun p hp => h.id p ((h.file p).1 hp), hindex _ (.inl rfl), hindex _ (.inr rfl), fun d i => ?_, hsingle,
    fun _ => Iff.rfl⟩
  show indexOf L.file.rows (·.decisionId) (fun _ => true) d = some i ↔ ∃ p ∈ L.file.rows, p.shadowId = i ∧ p.decisionId = d
  rw [indexOf_eq_some hdecided]
  simp only [and_true]

theorem empty : Coherent ShadowLedger.empty where
  id _ hp := absurd hp List.not_mem_nil
  pending symbol i := by simp [ShadowLedger.empty, ShadowLedger.reload, indexOf, Table.empty]
  opened symbol i := by simp [ShadowLedger.empty, ShadowLedger.reload, indexOf, Table.empty]
  decided d i := by simp [ShadowLedger.empty, ShadowLedger.reload, indexOf, Table.empty]
  single _ hp := absurd hp List.not_mem_nil
  file _ := Iff.rfl

theorem step (h : Coherent L) (e : Event) : Coherent (stepShadow policy config L e) := by
  cases e with
  | consider d source => exact h.considerEntry d source
  | bar symbol b => exact h.onBar symbol b
  | forceClose symbol t price reason => exact h.forceClose symbol t price reason
  | restart => exact h.reload

end Coherent

variable (policy : HorizonPolicy) (config : ExecutionConfig)

theorem runShadow_append (es : List Event) (e : Event) :
    runShadow policy config (es ++ [e]) = stepShadow policy config (runShadow policy config es) e :=
  List.foldl_append

/-- Over any sequence of calls and restarts. -/
theorem coherent_runShadow (es : List Event) : Coherent (runShadow policy config es) := by
  induction es using List.reverseRecOn with
  | nil => exact Coherent.empty
  | append_singleton es e ih =>
    rw [runShadow_append]
    exact ih.step e

end TalonX.Piv.Shadow
