import TalonX.Piv.World
import Mathlib.Algebra.Group.Submonoid.BigOperators
import Mathlib.Algebra.Order.Ring.Rat
import Mathlib.Tactic.Linarith
import Mathlib.Tactic.Ring

/-!
# The books

What the records of the lifecycle say about each other, and that an accepted update keeps it.

- `Lots u`: whole multiples of a lot; above the tolerance of the guards a positive quantity is more than the tolerance;
- `Filings`: the orders and their intents;
- `Ledger`: every position belongs to a BUY order, is open as long as something remains, and the remaining quantity of a
  symbol is what its BUY orders got less what its SELL orders gave;
- `Ledger.acceptUpdate`: an update keeps the books, when new shares come under a fill status, a SELL fill is covered, and
  no other position of the symbol is open when a BUY fill comes in.
-/

set_option autoImplicit false

namespace TalonX.Piv

open Transact V2

variable {u : ℚ}

/-! ## Lots -/

/-- A whole multiple of the lot `u`. -/
def Lots (u q : ℚ) : Prop := q ∈ AddSubgroup.zmultiples u

theorem Lots.zero : Lots u 0 := AddSubgroup.zero_mem _

theorem Lots.add {p q : ℚ} (hp : Lots u p) (hq : Lots u q) : Lots u (p + q) := AddSubgroup.add_mem _ hp hq

theorem Lots.sub {p q : ℚ} (hp : Lots u p) (hq : Lots u q) : Lots u (p - q) := AddSubgroup.sub_mem _ hp hq

theorem Lots.max {p q : ℚ} (hp : Lots u p) (hq : Lots u q) : Lots u (max p q) := by
  rcases max_choice p q with h | h <;> rwa [h]

theorem Lots.sum {l : List ℚ} (h : ∀ q ∈ l, Lots u q) : Lots u l.sum := list_sum_mem h

/-- A positive number of lots is at least one. -/
theorem Lots.le_of_pos {q : ℚ} (hu : 0 < u) (h : Lots u q) (hq : 0 < q) : u ≤ q := by
  obtain ⟨n, rfl⟩ := AddSubgroup.mem_zmultiples_iff.1 h
  rw [zsmul_eq_mul] at hq ⊢
  have hn : (0 : ℚ) < n := pos_of_mul_pos_left hq hu.le
  have hn' : (1 : ℚ) ≤ n := by exact_mod_cast Int.cast_pos.1 hn
  nlinarith

theorem shareTolerance_pos : 0 < shareTolerance := by norm_num [shareTolerance]

/-- Between zero and the tolerance there is no whole number of lots. -/
theorem Lots.nonpos {q : ℚ} (hu : shareTolerance < u) (h : Lots u q) (hq : q ≤ shareTolerance) : q ≤ 0 := by
  by_contra hc
  have := h.le_of_pos (shareTolerance_pos.trans hu) (not_le.1 hc)
  linarith

/-! ## The records -/

/-- The orders on file and their intents. -/
structure Filings (u : ℚ) (s : LifecycleState) : Prop where
  symbol : ∀ o ∈ s.orders.rows, o.symbol = o.intentId.symbol
  intent : ∀ o ∈ s.orders.rows, ∃ i, s.intents.get o.intentId = some i ∧ i.status = .submitted
  single : ∀ o ∈ s.orders.rows, ∀ q ∈ s.orders.rows, o.intentId = q.intentId → o = q
  nonneg : ∀ o ∈ s.orders.rows, 0 ≤ o.filledQty
  lots : ∀ o ∈ s.orders.rows, Lots u o.filledQty

structure Position.Sound (u : ℚ) (s : LifecycleState) (p : Position) : Prop where
  side : p.id.entry.side = .buy
  symbol : p.symbol = p.id.entry.symbol
  order : ∃ o ∈ s.orders.rows, o.intentId = p.id.entry ∧ o.filledQty = p.quantity
  positive : 0 < p.quantity
  rest : p.remainingQuantity = p.quantity - p.exitQuantity
  nonneg : 0 ≤ p.remainingQuantity
  opened : p.status = .opened ↔ 0 < p.remainingQuantity
  lots : Lots u p.remainingQuantity

/-- The positions and the orders. -/
structure Ledger (u : ℚ) (s : LifecycleState) : Prop where
  position : ∀ p ∈ s.positions.rows, p.Sound u s
  tracked : ∀ symbol id, s.openPositionBySymbol symbol = some id ↔
    ∃ p ∈ s.positions.rows, p.id = id ∧ p.symbol = symbol ∧ p.status = .opened
  entry : ∀ o ∈ s.orders.rows, o.intentId.side = .buy → 0 < o.filledQty →
    ∃ p ∈ s.positions.rows, p.id.entry = o.intentId
  balance : ∀ symbol, s.held symbol = s.recorded symbol .buy - s.recorded symbol .sell

variable {s s' : LifecycleState} {o : Order} {p : Position} {upd : Update} {symbol : Symbol}

namespace Ledger

theorem get_position (hp : p ∈ s.positions.rows) : s.positions.get p.id = some p := Table.get_eq_some.2 ⟨hp, rfl⟩

theorem openPositionFor_eq_some (h : Ledger u s) :
    s.openPositionFor symbol = some p ↔ p ∈ s.positions.rows ∧ p.symbol = symbol ∧ p.status = .opened := by
  unfold LifecycleState.openPositionFor
  constructor
  · intro hp
    cases hid : s.openPositionBySymbol symbol with
    | none => simp [hid] at hp
    | some id =>
      obtain ⟨q, hq, rfl, hsym, hop⟩ := (h.tracked symbol id).1 hid
      rw [hid, Option.bind_some, get_position hq] at hp
      simp only [hop, if_true, Option.some.injEq] at hp
      exact hp ▸ ⟨hq, hsym, hop⟩
  · rintro ⟨hp, hsym, hop⟩
    rw [(h.tracked symbol p.id).2 ⟨p, hp, rfl, hsym, hop⟩, Option.bind_some, get_position hp]
    simp [hop]

theorem tracked_position (h : Ledger u s) :
    (s.openPositionBySymbol symbol).bind s.positions.get = s.openPositionFor symbol := by
  unfold LifecycleState.openPositionFor
  cases hid : s.openPositionBySymbol symbol with
  | none => rfl
  | some id =>
    obtain ⟨q, hq, rfl, -, hop⟩ := (h.tracked symbol id).1 hid
    rw [Option.bind_some, get_position hq]
    simp [hop]

theorem openPositionFor_eq_none (h : Ledger u s) (hn : s.openPositionFor symbol = none) {p : Position}
    (hp : p ∈ s.positions.rows) (hsym : p.symbol = symbol) : p.remainingQuantity = 0 := by
  have hsound := h.position p hp
  have hclosed : p.status ≠ .opened := fun hop => by
    rw [(h.openPositionFor_eq_some).2 ⟨hp, hsym, hop⟩] at hn
    cases hn
  exact le_antisymm (not_lt.1 fun hpos => hclosed (hsound.opened.2 hpos)) hsound.nonneg

/-- Of the positions of a symbol at most one is open. -/
theorem opened_unique (h : Ledger u s) {q : Position} (hp : p ∈ s.positions.rows) (hq : q ∈ s.positions.rows)
    (hsym : p.symbol = q.symbol) (hpo : p.status = .opened) (hqo : q.status = .opened) : p = q := by
  have h1 := h.openPositionFor_eq_some.2 ⟨hp, hsym, hpo⟩
  rw [h.openPositionFor_eq_some.2 ⟨hq, rfl, hqo⟩] at h1
  exact (Option.some.inj h1).symm

/-- What a symbol holds is what its open position holds. -/
theorem held_of_open (h : Ledger u s) (hp : s.openPositionFor symbol = some p) :
    s.held symbol = p.remainingQuantity := by
  obtain ⟨hmem, hsym, hop⟩ := h.openPositionFor_eq_some.1 hp
  rw [LifecycleState.held, sumWhere_eq_single s.positions.nodup hmem, if_pos (by simp [hsym])]
  intro q hq hne hc
  have hsound := h.position q hq
  have hclosed : q.status ≠ .opened := fun hqo =>
    hne (h.opened_unique hq hmem ((by simpa using hc : q.symbol = symbol).trans hsym.symm) hqo hop)
  exact le_antisymm (not_lt.1 fun hpos => hclosed (hsound.opened.2 hpos)) hsound.nonneg

theorem held_of_flat (h : Ledger u s) (hn : s.openPositionFor symbol = none) : s.held symbol = 0 := by
  rw [LifecycleState.held, sumWhere_eq_sum]
  refine List.sum_eq_zero fun x hx => ?_
  obtain ⟨q, hq, rfl⟩ := List.mem_map.1 hx
  split
  · rename_i hc
    exact h.openPositionFor_eq_none hn hq (by simpa using hc)
  · rfl

theorem held_nonneg (h : Ledger u s) (symbol : Symbol) : 0 ≤ s.held symbol := by
  cases hp : s.openPositionFor symbol with
  | none => rw [h.held_of_flat hp]
  | some p => rw [h.held_of_open hp]; exact (h.position p (h.openPositionFor_eq_some.1 hp).1).nonneg

/-- A symbol has an open position as long as something remains. -/
theorem isSome_openPositionFor (h : Ledger u s) (symbol : Symbol) :
    (s.openPositionFor symbol).isSome ↔ 0 < s.held symbol := by
  cases hp : s.openPositionFor symbol with
  | none => simp [h.held_of_flat hp]
  | some p =>
    obtain ⟨hmem, -, hop⟩ := h.openPositionFor_eq_some.1 hp
    simpa [h.held_of_open hp] using (h.position p hmem).opened.1 hop

end Ledger

/-! ## An order takes over a report -/

section Report

variable (hf : Filings u s) (ho : o ∈ s.orders.rows)

include ho in
theorem mem_updateOrder {q : Order} :
    q ∈ (s.updateOrder o.id upd).orders.rows ↔ (q ∈ s.orders.rows ∧ q.id ≠ o.id) ∨ q = o.report upd := by
  exact Table.mem_update_key (f := (·.report upd)) (fun _ => rfl) ho

include ho in
/-- An order that changes belongs to the intent that it belonged to. -/
theorem mem_updateOrder_of_mem {q : Order} (hq : q ∈ s.orders.rows) (hne : q.intentId ≠ o.intentId) :
    q ∈ (s.updateOrder o.id upd).orders.rows := by
  refine (mem_updateOrder ho).2 (.inl ⟨hq, fun e => hne ?_⟩)
  rw [s.orders.eq_of_key hq ho e]

include ho in
theorem recorded_updateOrder (symbol : Symbol) (side : Side) :
    (s.updateOrder o.id upd).recorded symbol side =
      s.recorded symbol side +
        if o.intentId.symbol = symbol ∧ o.intentId.side = side then max o.filledQty upd.filledQty - o.filledQty else 0 := by
  have h : (s.updateOrder o.id upd).recorded symbol side =
      s.recorded symbol side - (if LifecycleState.ordersOf symbol side o then o.filledQty else 0) +
        if LifecycleState.ordersOf symbol side (o.report upd) then (o.report upd).filledQty else 0 :=
    Table.sumWhere_update_key (f := fun q : Order => q.report upd) (c := LifecycleState.ordersOf symbol side)
      (g := Order.filledQty) (fun _ => rfl) ho
  have hc : LifecycleState.ordersOf symbol side o = decide (o.intentId.symbol = symbol ∧ o.intentId.side = side) := by
    simp [LifecycleState.ordersOf]
  have hc' : LifecycleState.ordersOf symbol side (o.report upd) = LifecycleState.ordersOf symbol side o := rfl
  rw [h, hc', hc]
  by_cases hcond : o.intentId.symbol = symbol ∧ o.intentId.side = side
  · simp only [hcond, and_self, decide_true, if_true, Order.report]
    ring
  · simp only [hcond, decide_false, Bool.false_eq_true, if_false]
    ring

include hf ho in
theorem Filings.updateOrder (hl : Lots u upd.filledQty) : Filings u (s.updateOrder o.id upd) where
  symbol q hq := by
    rcases (mem_updateOrder ho).1 hq with ⟨hq, -⟩ | rfl
    · exact hf.symbol q hq
    · exact hf.symbol o ho
  intent q hq := by
    rcases (mem_updateOrder ho).1 hq with ⟨hq, -⟩ | rfl
    · exact hf.intent q hq
    · exact hf.intent o ho
  single q hq r hr he := by
    rcases (mem_updateOrder ho).1 hq with ⟨hq, hqo⟩ | rfl <;> rcases (mem_updateOrder ho).1 hr with ⟨hr, hro⟩ | rfl
    · exact hf.single q hq r hr he
    · exact absurd (congrArg Order.id (hf.single q hq o ho he)) hqo
    · exact absurd (congrArg Order.id (hf.single r hr o ho he.symm)) hro
    · rfl
  nonneg q hq := by
    rcases (mem_updateOrder ho).1 hq with ⟨hq, -⟩ | rfl
    · exact hf.nonneg q hq
    · exact (hf.nonneg o ho).trans (le_max_left ..)
  lots q hq := by
    rcases (mem_updateOrder ho).1 hq with ⟨hq, -⟩ | rfl
    · exact hf.lots q hq
    · exact (hf.lots o ho).max hl

end Report

/-! ## Positions that change with an order -/

theorem mem_putPosition {p' q : Position} :
    q ∈ (s.putPosition symbol p').positions.rows ↔ (q ∈ s.positions.rows ∧ q.id ≠ p'.id) ∨ q = p' :=
  Table.mem_upsert_of_replace fun x hx => by rw [hx]

/-- A position keeps its order when the order of another intent takes over a report, or nothing new is reported. -/
theorem Position.Sound.updateOrder (hp : p.Sound u s) (ho : o ∈ s.orders.rows)
    (h : p.id.entry ≠ o.intentId ∨ upd.filledQty ≤ o.filledQty)
    (horders : s'.orders = (s.updateOrder o.id upd).orders) : p.Sound u s' := by
  obtain ⟨q, hq, hqi, hqf⟩ := hp.order
  refine { hp with order := ?_ }
  rw [horders]
  by_cases hqo : q.id = o.id
  · rcases h with h | h
    · exact absurd (by rw [← hqi, s.orders.eq_of_key hq ho hqo]) h
    · obtain rfl := s.orders.eq_of_key hq ho hqo
      exact ⟨_, (mem_updateOrder ho).2 (.inr rfl), hqi, by rw [← hqf]; exact max_eq_left h⟩
  · exact ⟨q, (mem_updateOrder ho).2 (.inl ⟨hq, hqo⟩), hqi, hqf⟩

namespace Ledger

/-- Nothing new was reported, and the positions stay. -/
theorem of_no_news (h : Ledger u s) (ho : o ∈ s.orders.rows) (hle : upd.filledQty ≤ o.filledQty) :
    Ledger u (s.updateOrder o.id upd) where
  position p hp := (h.position p hp).updateOrder ho (.inr hle) rfl
  tracked := h.tracked
  entry q hq hside hpos := by
    rcases (mem_updateOrder ho).1 hq with ⟨hq, -⟩ | rfl
    · exact h.entry q hq hside hpos
    · exact h.entry o ho hside (by simpa [Order.report, hle] using hpos)
  balance symbol := by
    have hheld : (s.updateOrder o.id upd).held symbol = s.held symbol := rfl
    rw [hheld, h.balance, recorded_updateOrder ho, recorded_updateOrder ho, max_eq_left hle]
    simp

/-- One position is put in place of the one with its id, and the books balance again. -/
theorem put (p' : Position) (h : Ledger u s) (ho : o ∈ s.orders.rows)
    (horders : s'.orders = (s.updateOrder o.id upd).orders)
    (hpos : ∀ q, q ∈ s'.positions.rows ↔ (q ∈ s.positions.rows ∧ q.id ≠ p'.id) ∨ q = p')
    (hopen : s'.openPositionBySymbol =
      Function.update s.openPositionBySymbol p'.symbol (if p'.status = .opened then some p'.id else none))
    (hp' : p'.Sound u s')
    (hkeep : ∀ q ∈ s.positions.rows, q.id ≠ p'.id → q.id.entry ≠ o.intentId ∨ upd.filledQty ≤ o.filledQty)
    (hother : ∀ q ∈ s.positions.rows, q.id ≠ p'.id → q.symbol = p'.symbol → q.status ≠ .opened)
    (hnew : o.intentId.side = .buy → p'.id.entry = o.intentId)
    (hsame : ∀ q ∈ s.positions.rows, q.id = p'.id → q.symbol = p'.symbol)
    (hbal : ∀ symbol, s'.held symbol = s'.recorded symbol .buy - s'.recorded symbol .sell) : Ledger u s' where
  position q hq := by
    rcases (hpos q).1 hq with ⟨hq, hne⟩ | rfl
    · exact (h.position q hq).updateOrder ho (hkeep q hq hne) horders
    · exact hp'
  tracked sym id := by
    rw [hopen]
    by_cases hsym : sym = p'.symbol
    · subst hsym
      rw [Function.update_self]
      constructor
      · intro hid
        split at hid
        · exact ⟨p', (hpos p').2 (.inr rfl), Option.some.inj hid, rfl, by assumption⟩
        · cases hid
      · rintro ⟨q, hq, rfl, hqs, hqo⟩
        rcases (hpos q).1 hq with ⟨hq, hne⟩ | rfl
        · exact absurd hqo (hother q hq hne hqs)
        · rw [if_pos hqo]
    · rw [Function.update_of_ne hsym, h.tracked]
      constructor
      · rintro ⟨q, hq, rfl, hqs, hqo⟩
        refine ⟨q, (hpos q).2 (.inl ⟨hq, fun e => hsym ?_⟩), rfl, hqs, hqo⟩
        rw [← hqs, hsame q hq e]
      · rintro ⟨q, hq, rfl, hqs, hqo⟩
        rcases (hpos q).1 hq with ⟨hq, -⟩ | rfl
        · exact ⟨q, hq, rfl, hqs, hqo⟩
        · exact absurd hqs.symm hsym
  entry q hq hside hqpos := by
    rw [horders] at hq
    have hold : ∀ r ∈ s.positions.rows, ∃ r' ∈ s'.positions.rows, r'.id = r.id := fun r hr => by
      by_cases hrp : r.id = p'.id
      · exact ⟨p', (hpos p').2 (.inr rfl), hrp.symm⟩
      · exact ⟨r, (hpos r).2 (.inl ⟨hr, hrp⟩), rfl⟩
    rcases (mem_updateOrder ho).1 hq with ⟨hq, -⟩ | rfl
    · obtain ⟨r, hr, hre⟩ := h.entry q hq hside hqpos
      obtain ⟨r', hr', hid⟩ := hold r hr
      exact ⟨r', hr', by rw [hid, hre]⟩
    · exact ⟨p', (hpos p').2 (.inr rfl), hnew hside⟩
  balance := hbal

/-! ## SELL fills -/

section SellFill

variable {filledQty d : ℚ} {fillPrice : Option ℚ}

theorem remaining_exit (hp : p.Sound u s) (hd : d ≤ p.remainingQuantity) :
    (p.exit filledQty d fillPrice).remainingQuantity = p.remainingQuantity - d := by
  have hq : p.quantity ≠ 0 := hp.positive.ne'
  have hrest := hp.rest
  show max 0 ((if p.quantity = 0 then filledQty else p.quantity) - (p.exitQuantity + d)) = _
  rw [if_neg hq, max_eq_right (by linarith)]
  linarith

/-- A covered exit leaves a sound position. -/
theorem sound_exit (hu : shareTolerance < u) (hp : p.Sound u s) (hop : p.status = .opened)
    (hd : d ≤ p.remainingQuantity) (hl : Lots u d) (horder : ∃ q ∈ s'.orders.rows, q.intentId = p.id.entry ∧
      q.filledQty = p.quantity) : (p.exit filledQty d fillPrice).Sound u s' where
  side := hp.side
  symbol := hp.symbol
  order := horder
  positive := hp.positive
  rest := by
    rw [remaining_exit hp hd]
    show p.remainingQuantity - d = p.quantity - (p.exitQuantity + d)
    linarith [hp.rest]
  nonneg := by
    rw [remaining_exit hp hd]
    linarith
  opened := by
    have hstatus : (p.exit filledQty d fillPrice).status =
        if (p.exit filledQty d fillPrice).remainingQuantity ≤ shareTolerance then .closed else p.status := rfl
    rw [hstatus, remaining_exit hp hd]
    by_cases hle : p.remainingQuantity - d ≤ shareTolerance
    · have := (hp.lots.sub hl).nonpos hu hle
      simp [hle, not_lt.2 this]
    · have := shareTolerance_pos.trans (not_le.1 hle)
      rw [if_neg hle]
      exact ⟨fun _ => this, fun _ => hop⟩
  lots := by
    rw [remaining_exit hp hd]
    exact hp.lots.sub hl

end SellFill

theorem applySellFill (h : Ledger u s) (hf : Filings u s) (hu : shareTolerance < u) (ho : o ∈ s.orders.rows)
    (hside : o.intentId.side = .sell) (hl : Lots u upd.filledQty)
    (hcov : max o.filledQty upd.filledQty - o.filledQty ≤ s.held o.symbol) :
    Ledger u (applySellFill (s.updateOrder o.id upd) o.symbol (max o.filledQty upd.filledQty)
      (max 0 (max o.filledQty upd.filledQty - o.filledQty)) upd.fillPrice) := by
  have hd0 : 0 ≤ max o.filledQty upd.filledQty - o.filledQty := sub_nonneg.2 (le_max_left ..)
  have hld : Lots u (max o.filledQty upd.filledQty - o.filledQty) := ((hf.lots o ho).max hl).sub (hf.lots o ho)
  rw [max_eq_right hd0]
  unfold Piv.applySellFill
  have htracked : ((s.updateOrder o.id upd).openPositionBySymbol o.symbol).bind (s.updateOrder o.id upd).positions.get =
      s.openPositionFor o.symbol := h.tracked_position
  rw [htracked]
  cases hp : s.openPositionFor o.symbol with
  | none =>
    -- nothing is held, so nothing new was sold
    rw [h.held_of_flat hp] at hcov
    exact h.of_no_news ho (by linarith [le_max_right o.filledQty upd.filledQty])
  | some p =>
    obtain ⟨hmem, hsym, hop⟩ := h.openPositionFor_eq_some.1 hp
    have hsound := h.position p hmem
    have hentry : ∀ q ∈ s.positions.rows, q.id.entry ≠ o.intentId := fun q hq e => by
      have := (h.position q hq).side
      rw [e, hside] at this
      cases this
    rw [h.held_of_open hp] at hcov
    dsimp only
    generalize hp' : p.exit (max o.filledQty upd.filledQty) (max o.filledQty upd.filledQty - o.filledQty)
      upd.fillPrice = p'
    have hid : p'.id = p.id := by rw [← hp']; rfl
    have hsym' : p'.symbol = p.symbol := by rw [← hp']; rfl
    have hrem : p'.remainingQuantity = p.remainingQuantity - (max o.filledQty upd.filledQty - o.filledQty) := by
      rw [← hp', remaining_exit hsound hcov]
    have hsound' : p'.Sound u (s.updateOrder o.id upd) := by
      rw [← hp']
      exact sound_exit hu hsound hop hcov hld (hsound.updateOrder ho (.inl (hentry p hmem)) rfl).order
    have hreplace : ∀ x : Position, x.id = p.id → { p' with id := x.id } = p' := fun x hx => by rw [hx, ← hid]
    refine h.put p' ho rfl ?_ ?_ ⟨hsound'.side, hsound'.symbol, hsound'.order, hsound'.positive, hsound'.rest,
      hsound'.nonneg, hsound'.opened, hsound'.lots⟩ (fun q hq _ => .inl (hentry q hq)) ?_ ?_ ?_ ?_
    · intro q
      have hq := Table.mem_update_key (f := fun x : Position => { p' with id := x.id }) (fun _ => rfl) (q := q) hmem
      rw [hreplace p rfl] at hq
      rw [hid]
      exact hq
    · show (if p'.remainingQuantity ≤ shareTolerance then Function.update s.openPositionBySymbol o.symbol none
        else s.openPositionBySymbol) = _
      rw [hsym', hsym]
      by_cases hle : p'.remainingQuantity ≤ shareTolerance
      · have hclosed : ¬ p'.status = .opened := fun e =>
          absurd (hsound'.opened.1 e) (not_lt.2 (hsound'.lots.nonpos hu hle))
        rw [if_pos hle, if_neg hclosed]
      · have hopen : p'.status = .opened := hsound'.opened.2 (shareTolerance_pos.trans (not_le.1 hle))
        rw [if_neg hle, if_pos hopen, hid, ← (h.tracked o.symbol p.id).2 ⟨p, hmem, rfl, hsym, hop⟩,
          Function.update_eq_self]
    · intro q hq hne hqs hqo
      exact hne (by rw [hid, h.opened_unique hq hmem (hqs.trans hsym') hqo hop])
    · intro hbuy
      rw [hside] at hbuy
      cases hbuy
    · intro q hq he
      rw [hsym', s.positions.eq_of_key hq hmem (he.trans hid)]
    · intro symbol
      have hheld := Table.sumWhere_update_key (f := fun x : Position => { p' with id := x.id }) (fun _ => rfl)
        (c := fun x => decide (x.symbol = symbol)) (g := Position.remainingQuantity) hmem
      rw [hreplace p rfl] at hheld
      have hbuy : ¬ (o.intentId.symbol = symbol ∧ o.intentId.side = .buy) := fun e => by
        rw [hside] at e
        cases e.2
      have hrec : ∀ side, (s.updateOrder o.id upd).recorded symbol side = _ := fun side =>
        recorded_updateOrder ho symbol side
      refine hheld.trans ?_
      have hbal := h.balance symbol
      rw [LifecycleState.held] at hbal
      refine Eq.trans ?_ (congrArg₂ (· - ·) (hrec .buy) (hrec .sell)).symm
      rw [hbal, if_neg hbuy]
      have hsymo : p.symbol = o.intentId.symbol := hsym.trans (hf.symbol o ho)
      by_cases hc : o.intentId.symbol = symbol
      · simp only [hsym', hsymo, hc, hside, hrem, and_self, decide_true, if_true]
        ring
      · simp only [hsym', hsymo, hc, false_and, decide_false, Bool.false_eq_true, if_false]
        ring

/-! ## BUY fills -/

/-- The position of an entry after the new shares came in. -/
theorem put_entry (p' : Position) (h : Ledger u s) (hf : Filings u s) (ho : o ∈ s.orders.rows)
    (hside : o.intentId.side = .buy) (hl : Lots u upd.filledQty) (hid : p'.id = ⟨o.intentId⟩)
    (hsym : p'.symbol = o.symbol) (hop : p'.status = .opened) (hq : p'.quantity = max o.filledQty upd.filledQty)
    (hqpos : 0 < p'.quantity) (hrest : p'.remainingQuantity = p'.quantity - p'.exitQuantity)
    (hrem : p'.remainingQuantity = ((s.positions.get p'.id).elim 0 (·.remainingQuantity)) +
      (max o.filledQty upd.filledQty - o.filledQty)) (hrpos : 0 < p'.remainingQuantity)
    (hother : ∀ q ∈ s.positions.rows, q.id ≠ p'.id → q.symbol = p'.symbol → q.status ≠ .opened) :
    Ledger u ((s.updateOrder o.id upd).putPosition o.symbol p') := by
  have hreplace : ∀ x : Position, x.id = p'.id → { p' with id := x.id } = p' := fun x hx => by rw [hx]
  have hsymo : o.symbol = o.intentId.symbol := hf.symbol o ho
  have hold : Lots u ((s.positions.get p'.id).elim 0 (·.remainingQuantity)) := by
    cases hg : s.positions.get p'.id with
    | none => exact Lots.zero
    | some x => exact (h.position x (Table.mem_of_get hg)).lots
  refine h.put p' ho rfl ?_ ?_ ?_ ?_ hother ?_ ?_ ?_
  · intro q
    exact mem_putPosition
  · show (if p'.status = .opened then Function.update s.openPositionBySymbol o.symbol (some p'.id)
      else s.openPositionBySymbol) = _
    rw [if_pos hop, if_pos hop, hsym]
  · exact
      { side := by rw [hid]; exact hside
        symbol := by rw [hid, hsym, hsymo]
        order := ⟨o.report upd, (mem_updateOrder ho).2 (.inr rfl), by rw [hid]; rfl, hq.symm⟩
        positive := hqpos
        rest := hrest
        nonneg := hrpos.le
        opened := ⟨fun _ => hrpos, fun _ => hop⟩
        lots := hrem ▸ hold.add (((hf.lots o ho).max hl).sub (hf.lots o ho)) }
  · intro q _ hne
    refine .inl fun e => hne ?_
    rw [hid, ← e]
  · intro _
    rw [hid]
  · intro q hq he
    rw [(h.position q hq).symbol, he, hid, hsym, hsymo]
  · intro symbol
    have hheld : ((s.updateOrder o.id upd).putPosition o.symbol p').held symbol = _ :=
      Table.sumWhere_upsert_of_replace (t := s.positions) (c := fun x => decide (x.symbol = symbol))
        (g := Position.remainingQuantity) hreplace
    have hsell : ¬ (o.intentId.symbol = symbol ∧ o.intentId.side = .sell) := fun e => by
      rw [hside] at e
      cases e.2
    have hrec : ∀ side, (s.updateOrder o.id upd).recorded symbol side = _ := fun side =>
      recorded_updateOrder ho symbol side
    refine Eq.trans hheld (Eq.trans ?_ (congrArg₂ (· - ·) (hrec .buy) (hrec .sell)).symm)
    have hbal := h.balance symbol
    rw [LifecycleState.held] at hbal
    have helim : ((s.positions.get p'.id).elim 0 fun x => if decide (x.symbol = symbol) then x.remainingQuantity else 0) =
        if o.intentId.symbol = symbol then (s.positions.get p'.id).elim 0 (·.remainingQuantity) else 0 := by
      cases hg : s.positions.get p'.id with
      | none => simp
      | some x =>
        have hx := (h.position x (Table.mem_of_get hg)).symbol
        rw [Table.key_of_get hg, hid] at hx
        simp [hx]
    rw [hbal, helim, if_neg hsell, hsym, hsymo, hrem]
    by_cases hc : o.intentId.symbol = symbol
    · simp only [hc, hside, and_self, decide_true, if_true]
      ring
    · simp only [hc, false_and, decide_false, Bool.false_eq_true, if_false]
      ring

theorem applyBuyFill (h : Ledger u s) (hf : Filings u s) (hu : shareTolerance < u) (ho : o ∈ s.orders.rows)
    {i : Intent} (hi : s.intents.get o.intentId = some i) (hside : o.intentId.side = .buy) (hl : Lots u upd.filledQty)
    (hle : max o.filledQty upd.filledQty ≤ o.intentId.quantity) (hpos : 0 < max o.filledQty upd.filledQty)
    (hother : o.filledQty < upd.filledQty → ∀ p, s.openPositionFor o.symbol = some p → p.id.entry = o.intentId) :
    Ledger u (applyBuyFill (s.updateOrder o.id upd) i o.symbol upd (max o.filledQty upd.filledQty)
      (max 0 (max o.filledQty upd.filledQty - o.filledQty))) := by
  have hd0 : 0 ≤ max o.filledQty upd.filledQty - o.filledQty := sub_nonneg.2 (le_max_left ..)
  have hld : Lots u (max o.filledQty upd.filledQty - o.filledQty) := ((hf.lots o ho).max hl).sub (hf.lots o ho)
  have hid : i.id = o.intentId := Table.key_of_get hi
  -- a position of another entry is closed while new shares come in
  have hclosed : o.filledQty < upd.filledQty → ∀ q ∈ s.positions.rows, q.id ≠ ⟨o.intentId⟩ → q.symbol = o.symbol →
      q.status ≠ .opened := fun hlt q hq hne hqs hqo => by
    have := hother hlt q (h.openPositionFor_eq_some.2 ⟨hq, hqs, hqo⟩)
    exact hne (by rw [← this])
  rw [max_eq_right hd0]
  unfold Piv.applyBuyFill
  have hget : (s.updateOrder o.id upd).positions.get ⟨i.id⟩ = s.positions.get ⟨o.intentId⟩ := by rw [hid]; rfl
  rw [hget]
  cases hp : s.positions.get ⟨o.intentId⟩ with
  | none =>
    have hzero : o.filledQty = 0 := by
      by_contra hne
      obtain ⟨p, hpm, hpe⟩ := h.entry o ho hside (lt_of_le_of_ne (hf.nonneg o ho) (Ne.symm hne))
      exact Table.get_eq_none.1 hp p hpm (by rw [← hpe])
    have hlt : o.filledQty < upd.filledQty := by
      rw [hzero] at hpos ⊢
      exact (lt_max_iff.1 hpos).resolve_left (lt_irrefl _)
    have hnew : (i.openPosition o.symbol upd (max o.filledQty upd.filledQty)).id = ⟨o.intentId⟩ := by rw [← hid]; rfl
    apply h.put_entry (i.openPosition o.symbol upd (max o.filledQty upd.filledQty)) hf ho hside hl hnew rfl rfl rfl hpos
    · exact (sub_zero _).symm
    · rw [hnew, hp, hzero]
      show _ = 0 + (_ - 0)
      rw [zero_add, sub_zero, ← hzero]
      rfl
    · exact hpos
    · rw [hnew]
      exact hclosed hlt
  | some p =>
    have hmem := Table.mem_of_get hp
    have hpid := Table.key_of_get hp
    have hsound := h.position p hmem
    have hquant : p.quantity = o.filledQty := by
      obtain ⟨q, hq, hqe, hqf⟩ := hsound.order
      rw [← hqf, hf.single q hq o ho (by rw [hqe, hpid])]
    have hpsym : p.symbol = o.symbol := by rw [hsound.symbol, hpid, hf.symbol o ho]
    dsimp only
    have hfit : ¬ i.id.quantity + shareTolerance < max o.filledQty upd.filledQty := by
      rw [hid]
      linarith [shareTolerance_pos]
    rw [if_neg hfit]
    by_cases hdone : p.status = .closed ∧ max o.filledQty upd.filledQty - o.filledQty ≤ shareTolerance
    · rw [if_pos hdone]
      have := hld.nonpos hu hdone.2
      exact h.of_no_news ho (by linarith [le_max_right o.filledQty upd.filledQty])
    · rw [if_neg hdone]
      have hstatus : (p.merge upd (max o.filledQty upd.filledQty) (max o.filledQty upd.filledQty - o.filledQty)).status =
          .opened := by
        show (if _ then PositionStatus.opened else p.status) = _
        split
        · rfl
        · rename_i hc
          cases hps : p.status with
          | opened => rfl
          | closed => exact absurd ⟨hps, not_lt.1 hc⟩ hdone
      have hrpos : 0 < p.remainingQuantity + (max o.filledQty upd.filledQty - o.filledQty) := by
        by_cases hd : 0 < max o.filledQty upd.filledQty - o.filledQty
        · linarith [hsound.nonneg]
        · have hop : p.status = .opened := by
            cases hps : p.status with
            | opened => rfl
            | closed => exact absurd ⟨hps, (not_lt.1 hd).trans shareTolerance_pos.le⟩ hdone
          linarith [hsound.opened.1 hop]
      apply h.put_entry (p.merge upd (max o.filledQty upd.filledQty) (max o.filledQty upd.filledQty - o.filledQty)) hf ho
        hside hl hpid hpsym hstatus
      · show max p.quantity _ = _
        rw [hquant, max_eq_right (le_max_left ..)]
      · exact lt_max_of_lt_left hsound.positive
      · show p.remainingQuantity + _ = max p.quantity _ - p.exitQuantity
        rw [hsound.rest, hquant, max_eq_right (le_max_left ..)]
        ring
      · show p.remainingQuantity + _ = (s.positions.get p.id).elim 0 (·.remainingQuantity) + _
        rw [hpid, hp]
        rfl
      · exact hrpos
      · intro q hq hne hqs hqo
        by_cases hlt : o.filledQty < upd.filledQty
        · exact hclosed hlt q hq (hpid ▸ hne) (hqs.trans hpsym) hqo
        · have hzero : max o.filledQty upd.filledQty - o.filledQty = 0 := by
            rw [max_eq_left (not_lt.1 hlt), sub_self]
          rw [hzero, add_zero] at hrpos
          have heq : q = p := h.opened_unique hq hmem hqs hqo (hsound.opened.2 hrpos)
          have hids : q.id = p.id := by rw [heq]
          exact hne hids

/-! ## Accepted updates -/

/-- An accepted update keeps the books. -/
theorem acceptUpdate (h : Ledger u s) (hf : Filings u s) (hu : shareTolerance < u) (ho : o ∈ s.orders.rows)
    (hl : Lots u upd.filledQty) (hle : max o.filledQty upd.filledQty ≤ o.intentId.quantity)
    (hfill : o.filledQty < upd.filledQty → upd.status.isFill = true)
    (hsell : o.intentId.side = .sell → max o.filledQty upd.filledQty - o.filledQty ≤ s.held o.symbol)
    (hbuy : o.intentId.side = .buy → o.filledQty < upd.filledQty →
      ∀ p, s.openPositionFor o.symbol = some p → p.id.entry = o.intentId) :
    Ledger u (acceptUpdate s o upd) := by
  unfold Piv.acceptUpdate
  split
  · exact h
  · split
    · rename_i hcond
      obtain ⟨i, hi, -⟩ := hf.intent o ho
      have hi' : (s.updateOrder o.id upd).intents.get o.intentId = some i := hi
      unfold applyFill
      simp only [hi']
      have hid : i.id = o.intentId := Table.key_of_get hi
      cases hside : i.id.side with
      | sell => exact h.applySellFill hf hu ho (hid ▸ hside) hl (hsell (hid ▸ hside))
      | buy => exact h.applyBuyFill hf hu ho hi (hid ▸ hside) hl hle hcond.2 (hbuy (hid ▸ hside))
    · rename_i hcond
      -- new shares come under a fill status, so there are none
      refine h.of_no_news ho (not_lt.1 fun hlt => hcond ⟨hfill hlt, ?_⟩)
      exact lt_max_of_lt_right ((hf.nonneg o ho).trans_lt hlt)

end Ledger

end TalonX.Piv
