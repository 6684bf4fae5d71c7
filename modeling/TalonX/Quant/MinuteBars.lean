import TalonX.Quant.Consumer
import TalonX.Transact.Candle
import TalonX.Transact.Text

/-!
# Minute bars

What the scanner makes of the ticks of one symbol, in any order of arrival.

- `formingMinute`, `minuteWrites`, `evaluationsOf`: the accumulator, the rows written and the frames evaluated, as
  functions of the accepted ticks (`follows_run`);
- `minutes`: the minutes of the ticks with a price; `Leaves`: a tick of another minute than the last one of these;
- `evaluation_of_leaves`: what is evaluated when a minute is left, the latest minute so far.
-/

set_option autoImplicit false

namespace TalonX.Quant

open Transact

def MarketTickEvent.minute (e : MarketTickEvent) : Timestamp := floorMinute e.timestamp

/-- A tick with a price is one trade. -/
def MarketTickEvent.candle (e : MarketTickEvent) : Option (Candle ℚ) := e.close.map (Candle.point · (e.volume.getD 0))

/-! ## The ticks of one symbol -/

section Ticks

variable (eastern : Timestamp → ℕ) (n : ℕ)

/-- The accumulator after one more tick. -/
def nextMinute (acc : Option MinuteAccumulator) (e : MarketTickEvent) : Option MinuteAccumulator :=
  match e.close with
  | none => acc
  | some price =>
    some (match acc with
      | none => .start e.minute price (e.volume.getD 0)
      | some a =>
        if a.bucketStart = e.minute then a.add price (e.volume.getD 0) else .start e.minute price (e.volume.getD 0))

def formingMinute (ts : List MarketTickEvent) : Option MinuteAccumulator := ts.foldl nextMinute none

/-- The row of a minute. -/
def minuteBar (m : Timestamp) (c : Candle ℚ) : Bar :=
  ⟨m, some c.first, some c.high, some c.low, c.last, some c.volume, getSession eastern m⟩

def MinuteAccumulator.candle (a : MinuteAccumulator) : Candle ℚ := ⟨a.openPrice, a.high, a.low, a.close, a.volume⟩

def MinuteAccumulator.bar (a : MinuteAccumulator) : Bar := minuteBar eastern a.bucketStart a.candle

/-- The rows that ticks write, one for each tick with a price. -/
def minuteWritesFrom (acc : Option MinuteAccumulator) : List MarketTickEvent → List Bar
  | [] => []
  | e :: ts =>
    (if e.close.isSome then ((nextMinute acc e).map (·.bar eastern)).toList else []) ++
      minuteWritesFrom (nextMinute acc e) ts

def minuteWrites (ts : List MarketTickEvent) : List Bar := minuteWritesFrom eastern none ts

/-- The rows that are held after the ticks. -/
def minuteRows (ts : List MarketTickEvent) : Table Bar.timestamp := Table.empty.puts n (minuteWrites eastern ts)

/-- What one more tick leads to. -/
def evaluation (pre : List MarketTickEvent) (e : MarketTickEvent) : List Evaluation :=
  let rows := (minuteRows eastern n pre).rows
  if (formingMinute pre).any (·.bucketStart ≠ e.minute) ∧ rows ≠ [] then
    [⟨pre.length, rows.insertionSort (·.timestamp ≤ ·.timestamp)⟩]
  else []

def evaluationsFrom (pre : List MarketTickEvent) : List MarketTickEvent → List Evaluation
  | [] => []
  | e :: ts => evaluation eastern n pre e ++ evaluationsFrom (pre ++ [e]) ts

def evaluationsOf (ts : List MarketTickEvent) : List Evaluation := evaluationsFrom eastern n [] ts

variable {eastern} {n}

theorem formingMinute_concat (ts : List MarketTickEvent) (e : MarketTickEvent) :
    formingMinute (ts ++ [e]) = nextMinute (formingMinute ts) e := List.foldl_concat ..

theorem minuteWritesFrom_append (acc : Option MinuteAccumulator) (xs ys : List MarketTickEvent) :
    minuteWritesFrom eastern acc (xs ++ ys) =
      minuteWritesFrom eastern acc xs ++ minuteWritesFrom eastern (xs.foldl nextMinute acc) ys := by
  induction xs generalizing acc with
  | nil => rfl
  | cons e xs ih => rw [List.cons_append, minuteWritesFrom, ih, minuteWritesFrom, List.append_assoc, List.foldl_cons]

theorem minuteWrites_concat_blank {e : MarketTickEvent} (he : e.close = none) (ts : List MarketTickEvent) :
    minuteWrites eastern (ts ++ [e]) = minuteWrites eastern ts := by
  rw [minuteWrites, minuteWritesFrom_append, minuteWritesFrom, minuteWritesFrom, he]
  simp [minuteWrites]

theorem minuteWrites_concat {e : MarketTickEvent} {a : MinuteAccumulator} {p : ℚ} {ts : List MarketTickEvent}
    (he : e.close = some p) (ha : formingMinute (ts ++ [e]) = some a) :
    minuteWrites eastern (ts ++ [e]) = minuteWrites eastern ts ++ [a.bar eastern] := by
  rw [formingMinute_concat] at ha
  rw [minuteWrites, minuteWritesFrom_append, minuteWritesFrom, minuteWritesFrom, he, ← formingMinute, ha]
  rfl

theorem evaluationsFrom_append (pre xs ys : List MarketTickEvent) :
    evaluationsFrom eastern n pre (xs ++ ys) =
      evaluationsFrom eastern n pre xs ++ evaluationsFrom eastern n (pre ++ xs) ys := by
  induction xs generalizing pre with
  | nil => simp [evaluationsFrom]
  | cons e xs ih =>
    rw [List.cons_append, evaluationsFrom, ih, evaluationsFrom, List.append_assoc, List.append_assoc]
    rfl

theorem evaluationsOf_concat (ts : List MarketTickEvent) (e : MarketTickEvent) :
    evaluationsOf eastern n (ts ++ [e]) = evaluationsOf eastern n ts ++ evaluation eastern n ts e := by
  rw [evaluationsOf, evaluationsFrom_append, evaluationsFrom, evaluationsFrom, List.nil_append, List.append_nil]
  rfl

end Ticks

/-! ## The scanner follows the accepted ticks -/

section Follows

variable {eastern : Timestamp → ℕ} {config : QuantConfig} {key : Symbol}

namespace QuantScanner

variable (eastern)

/-- A message whose tick is not accepted touches no bar; an accepted one is handled with other duplicate keys at most. -/
theorem handle_cases (s : QuantScanner) (d : Delivery) :
    (∃ keys quotes, s.handleMarketTick eastern d =
      .dropped { s with recentBarKeys := keys, latestQuotes := quotes }) ∨
    ∃ keys, s.handleMarketTick eastern d = { s with recentBarKeys := keys }.acceptTick eastern d.event := by
  unfold handleMarketTick
  cases d.event.eventType with
  | trade => exact .inl ⟨_, _, rfl⟩
  | quote =>
    cases d.event.bid with
    | none => exact .inl ⟨_, _, rfl⟩
    | some bid =>
      cases d.event.ask with
      | none => exact .inl ⟨_, _, rfl⟩
      | some ask => exact .inl ⟨_, _, rfl⟩
  | bar =>
    obtain ⟨isNew, keys, hnew⟩ : ∃ isNew keys, s.isNewBarTick d = (isNew, { s with recentBarKeys := keys }) := by
      unfold isNewBarTick
      cases d.setNx with
      | some isNew => exact ⟨_, _, rfl⟩
      | none =>
        dsimp only
        split
        · exact ⟨_, _, rfl⟩
        · exact ⟨_, _, rfl⟩
    dsimp only
    rw [hnew]
    cases isNew with
    | true => exact .inr ⟨keys, rfl⟩
    | false => exact .inl ⟨keys, s.latestQuotes, rfl⟩

theorem minuteAccumulators_update1mBuffer (s : QuantScanner) (e : MarketTickEvent) :
    (s.update1mBuffer eastern e).minuteAccumulators =
      Function.update s.minuteAccumulators e.symbol.toUpper (nextMinute (s.minuteAccumulators e.symbol.toUpper) e) := by
  unfold update1mBuffer nextMinute
  cases e.close with
  | none => exact (Function.update_eq_self ..).symm
  | some price => rfl

theorem buffer_update1mBuffer (s : QuantScanner) (e : MarketTickEvent) :
    (s.update1mBuffer eastern e).buffer.maxBarsPerSymbol = s.buffer.maxBarsPerSymbol ∧
      (s.update1mBuffer eastern e).buffer.bars = Function.update s.buffer.bars e.symbol.toUpper
        ((s.buffer.bars e.symbol.toUpper).puts s.buffer.maxBarsPerSymbol
          (minuteWritesFrom eastern (s.minuteAccumulators e.symbol.toUpper) [e])) := by
  unfold update1mBuffer
  rw [minuteWritesFrom, minuteWritesFrom]
  cases hclose : e.close with
  | none => exact ⟨rfl, (Function.update_eq_self ..).symm⟩
  | some price =>
    simp only [nextMinute, hclose, Option.isSome_some, if_true, Option.map_some, Option.toList_some]
    refine ⟨RollingBarBuffer.maxBarsPerSymbol_addBar _, ?_⟩
    rw [RollingBarBuffer.addBar, MinuteAccumulator.write]
    dsimp only [BarWrite.row, Option.map_some]
    rw [toUpper_toUpper]
    rfl

/-- The buffers of coarse bars are apart from the minutes. -/
theorem minute_acceptTick (s : QuantScanner) (e : MarketTickEvent) :
    (s.acceptTick eastern e).scanner.minuteAccumulators = (s.update1mBuffer eastern e).minuteAccumulators ∧
      (s.acceptTick eastern e).scanner.buffer = (s.update1mBuffer eastern e).buffer := by
  unfold acceptTick updateRegimeBuffer60m
  dsimp only
  split
  · exact ⟨rfl, rfl⟩
  · exact ⟨rfl, rfl⟩

end QuantScanner

/-- The state of a symbol is the one that its accepted ticks lead to. -/
structure Follows (eastern : Timestamp → ℕ) (config : QuantConfig) (key : Symbol) (t : Trace) : Prop where
  capacity : t.scanner.buffer.maxBarsPerSymbol = config.maxBarsPerSymbol
  acc : t.scanner.minuteAccumulators key = formingMinute (t.accepted key)
  rows : t.scanner.buffer.bars key = minuteRows eastern config.maxBarsPerSymbol (t.accepted key)
  evaluations : t.evaluations key = evaluationsOf eastern config.maxBarsPerSymbol (t.accepted key)

theorem minuteRows_concat (n : ℕ) (ts : List MarketTickEvent) (e : MarketTickEvent) :
    minuteRows eastern n (ts ++ [e]) =
      (minuteRows eastern n ts).puts n (minuteWritesFrom eastern (formingMinute ts) [e]) := by
  rw [minuteRows, minuteWrites, minuteWritesFrom_append, Table.puts, List.foldl_append]
  rfl

/-- The frame of an accepted tick is the evaluation that its symbol's ticks lead to. -/
theorem Follows.frame {t : Trace} {e : MarketTickEvent} (h : Follows eastern config e.symbol.toUpper t)
    (keys : Symbol → List Timestamp) :
    (({ t.scanner with recentBarKeys := keys }.acceptTick eastern e).frame.elim [] fun frame =>
        [(⟨(t.accepted e.symbol.toUpper).length, frame⟩ : Evaluation)]) =
      evaluation eastern config.maxBarsPerSymbol (t.accepted e.symbol.toUpper) e := by
  have hclosed : { t.scanner with recentBarKeys := keys }.barJustClosed e =
      (formingMinute (t.accepted e.symbol.toUpper)).any (·.bucketStart ≠ e.minute) := by
    rw [QuantScanner.barJustClosed]
    dsimp only
    rw [h.acc]
    rfl
  unfold evaluation QuantScanner.acceptTick RollingBarBuffer.getDataframe RollingBarBuffer.getBars
  dsimp only
  rw [hclosed, h.rows]
  cases (formingMinute (t.accepted e.symbol.toUpper)).any (·.bucketStart ≠ e.minute) with
  | false => simp
  | true =>
    by_cases hrows : (minuteRows eastern config.maxBarsPerSymbol (t.accepted e.symbol.toUpper)).rows = []
    · simp [hrows]
    · simp [hrows]

theorem Follows.deliver {t : Trace} (h : Follows eastern config key t) (d : Delivery) :
    Follows eastern config key (t.deliver eastern d) := by
  unfold Trace.deliver
  dsimp only
  rcases t.scanner.handle_cases eastern d with ⟨keys, quotes, hd⟩ | ⟨keys, hd⟩
  · rw [hd]
    simp only [QuantScanner.Handled.dropped, Bool.false_eq_true, if_false, Option.elim_none, List.append_nil,
      Function.update_eq_self]
    exact ⟨h.capacity, h.acc, h.rows, h.evaluations⟩
  · obtain ⟨hacc, hbuffer⟩ := { t.scanner with recentBarKeys := keys }.minute_acceptTick eastern d.event
    obtain ⟨hcapacity, hbars⟩ := { t.scanner with recentBarKeys := keys }.buffer_update1mBuffer eastern d.event
    rw [QuantScanner.minuteAccumulators_update1mBuffer] at hacc
    dsimp only at hacc hcapacity hbars
    have haccepted : ({ t.scanner with recentBarKeys := keys }.acceptTick eastern d.event).accepted = true := rfl
    rw [hd, haccepted]
    by_cases hkey : key = d.event.symbol.toUpper
    · subst hkey
      refine ⟨?_, ?_, ?_, ?_⟩ <;> dsimp only
      · rw [hbuffer, hcapacity, h.capacity]
      · rw [hacc, if_pos rfl, Function.update_self, Function.update_self, formingMinute_concat, h.acc]
      · rw [hbuffer, hbars, if_pos rfl, Function.update_self, Function.update_self, minuteRows_concat, h.acc, h.rows,
          h.capacity]
      · rw [if_pos rfl, Function.update_self, Function.update_self, h.frame keys, evaluationsOf_concat, h.evaluations]
    · refine ⟨?_, ?_, ?_, ?_⟩ <;> dsimp only
      · rw [hbuffer, hcapacity, h.capacity]
      · rw [hacc, Function.update_of_ne hkey, Function.update_of_ne hkey, h.acc]
      · rw [hbuffer, hbars, Function.update_of_ne hkey, Function.update_of_ne hkey, h.rows]
      · rw [Function.update_of_ne hkey, Function.update_of_ne hkey, h.evaluations]

theorem follows_run (ds : List Delivery) : Follows eastern config key (Trace.run eastern config ds) := by
  induction ds using List.reverseRecOn with
  | nil => exact ⟨rfl, rfl, rfl, rfl⟩
  | append_singleton ds d ih =>
    rw [Trace.run, List.foldl_concat]
    exact ih.deliver d

end Follows

/-! ## Minutes and evaluations -/

section Minutes

variable {eastern : Timestamp → ℕ} {n : ℕ} {ts pre : List MarketTickEvent} {e : MarketTickEvent} {m : Timestamp}

/-- The minutes of the ticks that carry a price. -/
def minutes (ts : List MarketTickEvent) : List Timestamp := (ts.filter (·.close.isSome)).map (·.minute)

theorem minutes_append (xs ys : List MarketTickEvent) : minutes (xs ++ ys) = minutes xs ++ minutes ys := by
  rw [minutes, List.filter_append, List.map_append]
  rfl

theorem minutes_blank (he : e.close.isSome = false) : minutes [e] = [] := by simp [minutes, he]

theorem minutes_priced (he : e.close.isSome = true) : minutes [e] = [e.minute] := by simp [minutes, he]

theorem mem_minutes : m ∈ minutes ts ↔ ∃ e ∈ ts, e.close.isSome = true ∧ e.minute = m := by
  simp [minutes, and_assoc]

/-- Ticks of one minute add nothing but this minute. -/
theorem eq_of_mem_minutes (h : ∀ e ∈ ts, e.minute = m) {k : Timestamp} (hk : k ∈ minutes ts) : k = m := by
  obtain ⟨e, he, -, rfl⟩ := mem_minutes.1 hk
  exact h e he

/-- The tick is of another minute than the last price before it. -/
def Leaves (pre : List MarketTickEvent) (e : MarketTickEvent) : Prop :=
  ∃ m, (minutes pre).getLast? = some m ∧ m ≠ e.minute

theorem bucketStart_formingMinute (ts : List MarketTickEvent) :
    (formingMinute ts).map MinuteAccumulator.bucketStart = (minutes ts).getLast? := by
  induction ts using List.reverseRecOn with
  | nil => rfl
  | append_singleton ts e ih =>
    rw [formingMinute_concat, minutes_append, nextMinute]
    cases he : e.close with
    | none =>
      rw [minutes_blank (by rw [he]; rfl), List.append_nil]
      exact ih
    | some p =>
      rw [minutes_priced (by rw [he]; rfl), List.getLast?_concat]
      cases formingMinute ts with
      | none => rfl
      | some a =>
        by_cases ha : a.bucketStart = e.minute
        · simp [ha, MinuteAccumulator.add]
        · simp [ha, MinuteAccumulator.start]

theorem any_formingMinute :
    (formingMinute pre).any (·.bucketStart ≠ e.minute) = true ↔ Leaves pre e := by
  have h := bucketStart_formingMinute pre
  unfold Leaves
  rw [← h]
  cases formingMinute pre with
  | none => simp
  | some a => simp

theorem timestamps_minuteWrites (ts : List MarketTickEvent) :
    (minuteWrites eastern ts).map Bar.timestamp = minutes ts := by
  induction ts using List.reverseRecOn with
  | nil => rfl
  | append_singleton ts e ih =>
    rw [minutes_append]
    cases he : e.close with
    | none => rw [minuteWrites_concat_blank he, minutes_blank (by rw [he]; rfl), List.append_nil, ih]
    | some p =>
      have hlast := bucketStart_formingMinute (ts ++ [e])
      rw [minutes_append, minutes_priced (by rw [he]; rfl), List.getLast?_concat] at hlast
      obtain ⟨a, ha, hstart⟩ := Option.map_eq_some_iff.1 hlast
      rw [minuteWrites_concat he ha, List.map_append, ih, minutes_priced (by rw [he]; rfl), ← hstart]
      rfl

theorem holds_minuteRows (n : ℕ) (ts : List MarketTickEvent) :
    (minuteRows eastern n ts).Holds n (minuteWrites eastern ts) :=
  (Table.holds_empty n).puts (minuteWrites eastern ts)

theorem keys_minuteRows (n : ℕ) (ts : List MarketTickEvent) :
    (minuteRows eastern n ts).keys = largest n (minutes ts).toFinset := by
  rw [(holds_minuteRows n ts).keys, timestamps_minuteWrites]

/-- The latest minute of all is held, and read last. -/
theorem getLast?_sorted_minuteRows (hn : 0 < n) (hm : (minutes ts).max? = some m) :
    (((minuteRows eastern n ts).rows.insertionSort (·.timestamp ≤ ·.timestamp)).getLast?.map Bar.timestamp) = some m := by
  obtain ⟨hmem, hmax⟩ := List.max?_eq_some_iff.1 hm
  have hkeys := @keys_minuteRows eastern n ts
  have hheld : m ∈ (minuteRows eastern n ts).keys := by
    rw [hkeys, mem_largest, Finset.filter_eq_empty_iff.2 fun k hk => (hmax k (List.mem_toFinset.1 hk)).not_gt]
    exact ⟨List.mem_toFinset.2 hmem, hn⟩
  obtain ⟨r, hr, hrm⟩ := Table.mem_keys.1 hheld
  have htotal : Std.Total fun a b : Bar => a.timestamp ≤ b.timestamp := ⟨fun a b => le_total a.timestamp b.timestamp⟩
  have htrans : IsTrans Bar fun a b => a.timestamp ≤ b.timestamp := ⟨fun a b c => le_trans⟩
  have hsorted := List.pairwise_insertionSort (fun a b : Bar => a.timestamp ≤ b.timestamp) (minuteRows eastern n ts).rows
  have hperm := List.perm_insertionSort (fun a b : Bar => a.timestamp ≤ b.timestamp) (minuteRows eastern n ts).rows
  rcases List.eq_nil_or_concat ((minuteRows eastern n ts).rows.insertionSort (·.timestamp ≤ ·.timestamp)) with
    hnil | ⟨l, q, hl⟩
  · have hr' := hperm.mem_iff.2 hr
    rw [hnil] at hr'
    cases hr'
  · have hq : q ∈ (minuteRows eastern n ts).rows := by
      refine hperm.mem_iff.1 ?_
      rw [hl, List.concat_eq_append]
      exact List.mem_concat_self
    have hqm : q.timestamp ≤ m := by
      refine hmax _ (List.mem_toFinset.1 (largest_subset (n := n) ?_))
      rw [← hkeys]
      exact Table.mem_keys.2 ⟨q, hq, rfl⟩
    have hmq : m ≤ q.timestamp := by
      have hr' := hperm.mem_iff.2 hr
      rw [hl, List.concat_eq_append] at hsorted hr'
      rw [← hrm]
      rcases List.mem_append.1 hr' with hr' | hr'
      · exact (List.pairwise_append.1 hsorted).2.2 r hr' q (List.mem_singleton.2 rfl)
      · rw [List.mem_singleton.1 hr']
    rw [hl, List.concat_eq_append, List.getLast?_concat, Option.map_some, le_antisymm hqm hmq]

/-- The minute that is evaluated: the last row of the frame. -/
def Evaluation.minute (ev : Evaluation) : Option Timestamp := ev.frame.getLast?.map Bar.timestamp

theorem evaluation_of_not_leaves (h : ¬ Leaves pre e) : evaluation eastern n pre e = [] := by
  rw [evaluation, if_neg fun hc => h (any_formingMinute.1 hc.1)]

/-- A tick that leaves a minute has the latest minute so far evaluated. -/
theorem evaluation_of_leaves (hn : 0 < n) (h : Leaves pre e) :
    ∃ ev m, evaluation eastern n pre e = [ev] ∧ ev.position = pre.length ∧ ev.minute = some m ∧
      (minutes pre).max? = some m := by
  obtain ⟨last, hlast, hne⟩ := h
  obtain ⟨m, hm⟩ := Option.isSome_iff_exists.1 (List.isSome_max?_of_mem (List.mem_of_getLast? hlast))
  have hminute := @getLast?_sorted_minuteRows eastern _ _ _ hn hm
  have hrows : (minuteRows eastern n pre).rows ≠ [] := by
    intro hnil
    rw [hnil] at hminute
    cases hminute
  refine ⟨⟨pre.length, (minuteRows eastern n pre).rows.insertionSort (·.timestamp ≤ ·.timestamp)⟩, m, ?_, rfl, hminute, hm⟩
  rw [evaluation, if_pos ⟨any_formingMinute.2 ⟨last, hlast, hne⟩, hrows⟩]

theorem evaluationsFrom_of_stays {xs : List MarketTickEvent} (hpre : (minutes pre).getLast? = some m)
    (h : ∀ e ∈ xs, e.minute = m) : evaluationsFrom eastern n pre xs = [] := by
  induction xs generalizing pre with
  | nil => rfl
  | cons e xs ih =>
    have he := h e List.mem_cons_self
    have hstay : ¬ Leaves pre e := by
      rintro ⟨m', hm', hne⟩
      rw [hpre, Option.some.injEq] at hm'
      exact hne (hm' ▸ he.symm)
    have hpre' : (minutes (pre ++ [e])).getLast? = some m := by
      rw [minutes_append]
      cases hc : e.close.isSome with
      | false => rwa [minutes_blank hc, List.append_nil]
      | true => rw [minutes_priced hc, List.getLast?_concat, he]
    rw [evaluationsFrom, evaluation_of_not_leaves hstay, ih hpre' fun x hx => h x (List.mem_cons_of_mem _ hx)]
    rfl

end Minutes

end TalonX.Quant
