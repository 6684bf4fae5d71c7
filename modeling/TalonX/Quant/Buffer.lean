import Mathlib.Data.List.Sort
import TalonX.Quant.Schemas
import TalonX.Transact.Largest

/-!
# The rolling bar buffer

- `RollingBarBuffer`: bars by symbol and timestamp; `addBar` replaces the bar with the timestamp, and drops the oldest
  one when there are too many;
- `written`: the bars that calls write for a symbol; `bars_addBars`: what any calls leave in the buffer;
- `newest_bars_held`: the newest timestamps ever added, each with the bar last written for it, in any order of batches
  that have no timestamp in common.
-/

set_option autoImplicit false

namespace TalonX.Quant

open Transact

/-- The arguments of one `add_bar`. -/
structure BarWrite where
  symbol : Symbol
  timestamp : Timestamp
  openPrice : Option ℚ
  high : Option ℚ
  low : Option ℚ
  close : Option ℚ
  volume : Option ℚ
  session : Option Session
  deriving DecidableEq, Repr

/-- The row of a call; there is none without a close. -/
def BarWrite.row (eastern : Timestamp → ℕ) (w : BarWrite) : Option Bar :=
  w.close.map fun close =>
    { timestamp := w.timestamp
      openPrice := w.openPrice
      high := w.high
      low := w.low
      close := close
      volume := w.volume
      session := w.session.getD (getSession eastern w.timestamp) }

structure RollingBarBuffer where
  maxBarsPerSymbol : ℕ
  bars : Symbol → Table Bar.timestamp

namespace RollingBarBuffer

variable (eastern : Timestamp → ℕ)

def empty (maxBarsPerSymbol : ℕ) : RollingBarBuffer := ⟨maxBarsPerSymbol, fun _ => Table.empty⟩

def addBar (b : RollingBarBuffer) (w : BarWrite) : RollingBarBuffer :=
  match w.row eastern with
  | none => b
  | some r =>
    let symbol := w.symbol.toUpper
    { b with bars := Function.update b.bars symbol ((b.bars symbol).put b.maxBarsPerSymbol r) }

def addBars (b : RollingBarBuffer) (ws : List BarWrite) : RollingBarBuffer := ws.foldl (addBar eastern) b

def barCount (b : RollingBarBuffer) (symbol : Symbol) : ℕ := (b.bars symbol.toUpper).rows.length

def getBars (b : RollingBarBuffer) (symbol : Symbol) : List Bar :=
  (b.bars symbol.toUpper).rows.insertionSort (·.timestamp ≤ ·.timestamp)

def getDataframe (b : RollingBarBuffer) (symbol : Symbol) : Option (List Bar) :=
  if (b.bars symbol.toUpper).rows = [] then none else some (b.getBars symbol)

/-- `_run_1m_preseed` once the history is there: its last bars, in one go. -/
def run1mPreseed (minBarsRequired : ℕ) (b : RollingBarBuffer) (symbol : Symbol) (bars : List Bar) : RollingBarBuffer :=
  let recent := if minBarsRequired = 0 then bars else bars.drop (bars.length - minBarsRequired)
  b.addBars eastern (recent.map fun r =>
    ⟨symbol, r.timestamp, r.openPrice, r.high, r.low, some r.close, r.volume, some r.session⟩)

/-! ## What calls leave -/

/-- The rows that calls write for a symbol, in order. -/
def written (ws : List BarWrite) (symbol : Symbol) : List Bar :=
  ws.filterMap fun w => if w.symbol.toUpper = symbol.toUpper then w.row eastern else none

variable {eastern} {b : RollingBarBuffer}

@[simp] theorem maxBarsPerSymbol_addBar (w : BarWrite) :
    (b.addBar eastern w).maxBarsPerSymbol = b.maxBarsPerSymbol := by
  unfold addBar
  split <;> rfl

theorem bars_addBar (w : BarWrite) (symbol : Symbol) :
    (b.addBar eastern w).bars symbol.toUpper =
      (b.bars symbol.toUpper).puts b.maxBarsPerSymbol (written eastern [w] symbol) := by
  unfold addBar written
  cases hrow : w.row eastern with
  | none =>
    rw [List.filterMap_cons, List.filterMap_nil, hrow, ite_self]
    rfl
  | some r =>
    by_cases hs : w.symbol.toUpper = symbol.toUpper
    · rw [List.filterMap_cons, List.filterMap_nil, if_pos hs, hrow]
      dsimp only
      rw [hs, Function.update_self]
      rfl
    · rw [List.filterMap_cons, List.filterMap_nil, if_neg hs]
      dsimp only
      rw [Function.update_of_ne (Ne.symm hs)]
      rfl

theorem bars_addBars (ws : List BarWrite) (symbol : Symbol) :
    (b.addBars eastern ws).bars symbol.toUpper =
      (b.bars symbol.toUpper).puts b.maxBarsPerSymbol (written eastern ws symbol) := by
  induction ws generalizing b with
  | nil => rfl
  | cons w ws ih =>
    have hsplit : written eastern (w :: ws) symbol = written eastern [w] symbol ++ written eastern ws symbol :=
      List.filterMap_append (l := [w])
    rw [hsplit, Table.puts, List.foldl_append, ← Table.puts, ← Table.puts, ← bars_addBar]
    exact (ih (b := b.addBar eastern w)).trans (by rw [maxBarsPerSymbol_addBar])

theorem holds_addBars (n : ℕ) (ws : List BarWrite) (symbol : Symbol) :
    (((empty n).addBars eastern ws).bars symbol.toUpper).Holds n (written eastern ws symbol) := by
  rw [bars_addBars]
  exact (Table.holds_empty n).puts (written eastern ws symbol)

/-- Tables with the same rows are read in the same order. -/
theorem insertionSort_eq_of_get {t t' : Table Bar.timestamp} (h : ∀ k, t.get k = t'.get k) :
    t.rows.insertionSort (·.timestamp ≤ ·.timestamp) = t'.rows.insertionSort (·.timestamp ≤ ·.timestamp) := by
  have hmem (r : Bar) : r ∈ t.rows ↔ r ∈ t'.rows := by
    have hr := Table.get_eq_some (t := t) (k := r.timestamp) (r := r)
    rw [h, Table.get_eq_some] at hr
    simpa using hr.symm
  have hperm : t.rows.Perm t'.rows := (List.perm_ext_iff_of_nodup t.nodup t'.nodup).2 hmem
  have hperm' := ((List.perm_insertionSort (·.timestamp ≤ ·.timestamp) t.rows).trans hperm).trans
    (List.perm_insertionSort (·.timestamp ≤ ·.timestamp) t'.rows).symm
  have htotal : Std.Total fun a b : Bar => a.timestamp ≤ b.timestamp := ⟨fun a b => le_total a.timestamp b.timestamp⟩
  have htrans : IsTrans Bar fun a b => a.timestamp ≤ b.timestamp := ⟨fun a b c => le_trans⟩
  refine hperm'.eq_of_pairwise (fun a c ha hc hac hca => ?_) (List.pairwise_insertionSort _ _)
    (List.pairwise_insertionSort _ _)
  have ha := (List.perm_insertionSort _ _).mem_iff.1 ha
  have hc := (hmem c).2 ((List.perm_insertionSort _ _).mem_iff.1 hc)
  exact t.eq_of_key ha hc (le_antisymm hac hca)

theorem addBars_append (ws ws' : List BarWrite) :
    b.addBars eastern (ws ++ ws') = (b.addBars eastern ws).addBars eastern ws' := List.foldl_append ..

/-- Two batches without a common timestamp may come in either order. -/
theorem getBars_swap (n : ℕ) (symbol : Symbol) (before xs ys : List BarWrite)
    (hapart : ∀ t ∈ (written eastern xs symbol).map Bar.timestamp, t ∉ (written eastern ys symbol).map Bar.timestamp) :
    ((empty n).addBars eastern (before ++ xs ++ ys)).getBars symbol =
      ((empty n).addBars eastern (before ++ ys ++ xs)).getBars symbol := by
  have happend (us vs : List BarWrite) :
      written eastern (before ++ us ++ vs) symbol =
        written eastern before symbol ++ written eastern us symbol ++ written eastern vs symbol := by
    simp only [written, List.filterMap_append]
  have hxy := @holds_addBars eastern n (before ++ xs ++ ys) symbol
  have hyx := @holds_addBars eastern n (before ++ ys ++ xs) symbol
  rw [happend] at hxy hyx
  exact insertionSort_eq_of_get (hxy.get_swap hyx hapart)

/-- The history may land before or after live bars of other minutes. -/
theorem getBars_run1mPreseed_swap (n m : ℕ) (symbol : Symbol) (before live : List BarWrite) (bars : List Bar)
    (hapart : ∀ r ∈ bars, r.timestamp ∉ (written eastern live symbol).map Bar.timestamp) :
    (run1mPreseed eastern m ((empty n).addBars eastern (before ++ live)) symbol bars).getBars symbol =
      ((run1mPreseed eastern m ((empty n).addBars eastern before) symbol bars).addBars eastern live).getBars symbol := by
  unfold run1mPreseed
  dsimp only
  rw [← addBars_append, ← addBars_append, ← addBars_append, ← List.append_assoc]
  refine @getBars_swap eastern n symbol before live _ fun t ht hpre => ?_
  obtain ⟨r, hr, rfl⟩ := List.mem_map.1 hpre
  obtain ⟨w, hw, hrow⟩ := List.mem_filterMap.1 hr
  obtain ⟨q, hq, rfl⟩ := List.mem_map.1 hw
  have hq : q ∈ bars := by
    split at hq
    · exact hq
    · exact List.mem_of_mem_drop hq
  rw [if_pos rfl] at hrow
  obtain rfl := Option.some.inj hrow
  exact hapart q hq ht

/-- **Rolling buffer law.** The newest timestamps ever added are held, `min n k` of them, each with the bar last written
for it; and batches without a common timestamp may come in either order. -/
theorem newest_bars_held (n : ℕ) (ws : List BarWrite) (symbol : Symbol) :
    let held := ((empty n).addBars eastern ws).bars symbol.toUpper
    let added := ((written eastern ws symbol).map Bar.timestamp).toFinset
    (held.keys ⊆ added ∧ held.rows.length = min n added.card ∧
        ∀ t ∈ added, t ∉ held.keys → ∀ t' ∈ held.keys, t < t') ∧
      (∀ r ∈ held.rows, (written eastern ws symbol).reverse.find? (·.timestamp = r.timestamp) = some r) ∧
      ∀ before xs ys : List BarWrite,
        (∀ t ∈ (written eastern xs symbol).map Bar.timestamp, t ∉ (written eastern ys symbol).map Bar.timestamp) →
        ((empty n).addBars eastern (before ++ xs ++ ys)).getBars symbol =
          ((empty n).addBars eastern (before ++ ys ++ xs)).getBars symbol := by
  intro held added
  have hholds : held.Holds n (written eastern ws symbol) := holds_addBars n ws symbol
  have hkeys : held.keys = largest n added := hholds.keys
  refine ⟨⟨?_, ?_, ?_⟩, ?_, getBars_swap n symbol⟩
  · rw [hkeys]
    exact largest_subset
  · rw [← held.card_keys, hkeys, card_largest]
  · intro t ht hout t' ht'
    rw [hkeys] at hout ht'
    exact lt_of_not_mem_largest ht' ht hout
  · intro r hr
    have hget : held.get r.timestamp = some r := Table.get_eq_some.2 ⟨hr, rfl⟩
    have hmem : r.timestamp ∈ largest n added := hkeys ▸ Table.mem_keys.2 ⟨r, hr, rfl⟩
    rwa [hholds, if_pos hmem] at hget

end RollingBarBuffer

end TalonX.Quant
