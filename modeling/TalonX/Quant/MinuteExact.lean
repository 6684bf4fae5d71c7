import TalonX.Quant.MinuteBars
import TalonX.Transact.Runs

/-!
# Exact minute bars

- `ExactBar`: a row with the first, highest, lowest and last price of the ticks of its minute, and their volume;
- `Contiguous`: no minute comes back; then every row is exact (`exact_of_contiguous`);
- `Tidy`: what holds while minutes are left for later ones only; `Ended`: after the last minute was left;
- `Orderly`: ticks that leave a minute only for a later one, and carry a price when they do;
- `minute_bars_exact_iff`: for exactly these ticks every row is exact and every minute is evaluated once, when it is
  complete.
-/

set_option autoImplicit false

namespace TalonX.Quant

open Transact

/-! ## Rows -/

/-- The ticks of a minute that carry a price, in order of arrival. -/
def ticksOf (ts : List MarketTickEvent) (m : Timestamp) : List MarketTickEvent :=
  ts.filter fun e => e.close.isSome ∧ e.minute = m

structure ExactBar (es : List MarketTickEvent) (r : Bar) : Prop where
  openPrice : r.openPrice = (es.filterMap (·.close)).head?
  high : r.high = (es.filterMap (·.close)).max?
  low : r.low = (es.filterMap (·.close)).min?
  close : some r.close = (es.filterMap (·.close)).getLast?
  volume : r.volume = some (es.map (·.volume.getD 0)).sum

section Rows

variable {eastern : Timestamp → ℕ} {n : ℕ} {ts : List MarketTickEvent} {e : MarketTickEvent} {m : Timestamp}

/-- The candle of a minute is its exact row. -/
theorem exactBar_minuteBar {es : List MarketTickEvent} {c : Candle ℚ} (hes : ∀ e ∈ es, e.close.isSome = true)
    (h : candle? (es.filterMap (·.candle)) = some c) : ExactBar es (minuteBar eastern m c) := by
  have hprice (f : Candle ℚ → ℚ) (hf : ∀ p v, f (.point p v) = p) :
      (es.filterMap (·.candle)).map f = es.filterMap (·.close) := by
    rw [List.map_filterMap]
    refine List.filterMap_congr fun e _ => ?_
    rw [MarketTickEvent.candle, Option.map_map]
    cases e.close with
    | none => rfl
    | some p => exact congrArg some (hf p _)
  have hvolume : (es.filterMap (·.candle)).map Candle.volume = es.map (·.volume.getD 0) := by
    rw [List.map_filterMap, ← List.filterMap_eq_map]
    refine List.filterMap_congr fun e he => ?_
    obtain ⟨p, hp⟩ := Option.isSome_iff_exists.1 (hes e he)
    rw [MarketTickEvent.candle, hp]
    rfl
  obtain ⟨hfirst, hhigh, hlow, hlast, hsum⟩ := candle?_fields h
  rw [hprice _ fun _ _ => rfl] at hfirst hhigh hlow hlast
  exact ⟨hfirst.symm, hhigh.symm, hlow.symm, hlast.symm, by rw [← hvolume, hsum]; rfl⟩

/-- No minute comes back once another one has begun. -/
def Contiguous (ms : List Timestamp) : Prop := ∀ l m r, ms = l ++ m :: r → m ∈ l → l.getLast? = some m

theorem contiguous_concat {ms : List Timestamp} :
    Contiguous (ms ++ [m]) ↔ Contiguous ms ∧ (m ∈ ms → ms.getLast? = some m) := by
  constructor
  · intro h
    refine ⟨fun l k r hsplit => h l k (r ++ [m]) ?_, h ms m [] rfl⟩
    rw [hsplit, List.append_assoc]
    rfl
  · rintro ⟨h, hlast⟩ l k r hsplit hk
    rcases List.eq_nil_or_concat r with rfl | ⟨r', x, rfl⟩
    · obtain ⟨rfl, hm⟩ := List.append_inj' hsplit rfl
      obtain rfl := (List.singleton_inj.1 hm)
      exact hlast hk
    · rw [List.concat_eq_append, ← List.cons_append, ← List.append_assoc] at hsplit
      exact h l k r' (List.append_inj' hsplit rfl).1 hk

theorem contiguous_of_sorted {ms : List Timestamp} (h : ms.Pairwise (· ≤ ·)) : Contiguous ms := by
  intro l m r hsplit hm
  rcases List.eq_nil_or_concat l with rfl | ⟨l', x, rfl⟩
  · cases hm
  rw [hsplit, List.concat_eq_append, List.append_assoc] at h
  rw [List.concat_eq_append] at hm ⊢
  have hxm : x ≤ m := (List.pairwise_cons.1 (List.pairwise_append.1 h).2.1).1 m List.mem_cons_self
  have hmx : m ≤ x := by
    rcases List.mem_append.1 hm with hm | hm
    · exact (List.pairwise_append.1 h).2.2 m hm x (by simp)
    · exact (List.mem_singleton.1 hm).le
  rw [List.getLast?_concat, le_antisymm hxm hmx]

theorem ticksOf_eq_nil (h : m ∉ minutes ts) : ticksOf ts m = [] := by
  refine List.filter_eq_nil_iff.2 fun e he hc => h ?_
  obtain ⟨hclose, hm⟩ := of_decide_eq_true hc
  exact mem_minutes.2 ⟨e, he, hclose, hm⟩

/-- One more tick with a price, of the last minute or of a new one. -/
theorem candle_nextMinute {p : ℚ} (he : e.close = some p) (hnew : e.minute ∈ minutes ts → (minutes ts).getLast? = some e.minute)
    (hacc : ∀ a, formingMinute ts = some a → candle? ((ticksOf ts a.bucketStart).filterMap (·.candle)) = some a.candle) :
    ∃ a, formingMinute (ts ++ [e]) = some a ∧ a.bucketStart = e.minute ∧
      candle? ((ticksOf ts e.minute ++ [e]).filterMap (·.candle)) = some a.candle := by
  have hcandle : e.candle = some (Candle.point p (e.volume.getD 0)) := by rw [MarketTickEvent.candle, he]; rfl
  have hlast := bucketStart_formingMinute ts
  have hfirst (h : (minutes ts).getLast? ≠ some e.minute) :
      candle? ((ticksOf ts e.minute ++ [e]).filterMap (·.candle)) = some (.point p (e.volume.getD 0)) := by
    rw [ticksOf_eq_nil fun hm => h (hnew hm), List.nil_append, List.filterMap_cons_some hcandle]
    rfl
  rw [formingMinute_concat, nextMinute, he]
  cases hforming : formingMinute ts with
  | none =>
    rw [hforming, Option.map_none] at hlast
    exact ⟨_, rfl, rfl, hfirst (by rw [← hlast]; rintro ⟨⟩)⟩
  | some a =>
    rw [hforming, Option.map_some] at hlast
    by_cases ha : a.bucketStart = e.minute
    · refine ⟨a.add p (e.volume.getD 0), by simp [ha], ha, ?_⟩
      have hcs := hacc a hforming
      rw [ha] at hcs
      rw [List.filterMap_append, List.filterMap_cons_some hcandle, List.filterMap_nil, candle?_concat, hcs]
      rfl
    · refine ⟨.start e.minute p (e.volume.getD 0), by simp [ha], rfl, hfirst ?_⟩
      rw [← hlast]
      exact fun h => ha (Option.some.inj h)

/-- The accumulator and the rows of minutes that do not come back are candles of their ticks. -/
theorem exact_of_contiguous (h : Contiguous (minutes ts)) :
    (∀ a, formingMinute ts = some a → candle? ((ticksOf ts a.bucketStart).filterMap (·.candle)) = some a.candle) ∧
      ∀ m, lastWritten Bar.timestamp (minuteWrites eastern ts) m =
        (candle? ((ticksOf ts m).filterMap (·.candle))).map (minuteBar eastern m) := by
  induction ts using List.reverseRecOn with
  | nil => exact ⟨nofun, fun m => rfl⟩
  | append_singleton ts e ih =>
    have hticks (m : Timestamp) : ticksOf (ts ++ [e]) m = ticksOf ts m ++ ticksOf [e] m := List.filter_append ..
    rw [minutes_append] at h
    cases he : e.close with
    | none =>
      rw [minutes_blank (by rw [he]; rfl), List.append_nil] at h
      have hsame (m : Timestamp) : ticksOf (ts ++ [e]) m = ticksOf ts m := by
        rw [hticks]
        simp [ticksOf, he]
      have hforming : formingMinute (ts ++ [e]) = formingMinute ts := by rw [formingMinute_concat, nextMinute, he]
      simp only [hsame, hforming, minuteWrites_concat_blank he]
      exact ih h
    | some p =>
      rw [minutes_priced (by rw [he]; rfl), contiguous_concat] at h
      obtain ⟨hacc, hwrites⟩ := ih h.1
      obtain ⟨a, ha, hstart, hcandle⟩ := candle_nextMinute he h.2 hacc
      have hown : ticksOf [e] e.minute = [e] := by simp [ticksOf, he]
      constructor
      · intro b hb
        obtain rfl := Option.some.inj (ha.symm.trans hb)
        rw [hstart, hticks, hown, hcandle]
      · intro m
        rw [minuteWrites_concat he ha, lastWritten_concat, hticks]
        have htime : (a.bar eastern).timestamp = e.minute := hstart
        rw [htime]
        by_cases hm : e.minute = m
        · subst hm
          rw [if_pos rfl, hown, hcandle, MinuteAccumulator.bar, hstart]
          rfl
        · have hother : ticksOf [e] m = [] := by simp [ticksOf, hm]
          rw [if_neg hm, hother, List.append_nil, hwrites]

theorem rows_of_contiguous (h : Contiguous (minutes ts)) {r : Bar} (hr : r ∈ (minuteRows eastern n ts).rows) :
    ExactBar (ticksOf ts r.timestamp) r := by
  have hget : (minuteRows eastern n ts).get r.timestamp = some r := Table.get_eq_some.2 ⟨hr, rfl⟩
  have hmem : r.timestamp ∈ largest n ((minuteWrites eastern ts).map Bar.timestamp).toFinset := by
    rw [← (holds_minuteRows n ts).keys]
    exact Table.mem_keys.2 ⟨r, hr, rfl⟩
  rw [holds_minuteRows n ts, if_pos hmem, (exact_of_contiguous h).2] at hget
  obtain ⟨c, hc, hbar⟩ := Option.map_eq_some_iff.1 hget
  rw [← hbar]
  exact exactBar_minuteBar (fun e he => (of_decide_eq_true (List.mem_filter.1 he).2).1) (by rw [hbar]; exact hc)

/-- More of the last minute. -/
theorem contiguous_append {ms ks : List Timestamp} (h : Contiguous ms) (hlast : ms.getLast? = some m)
    (hks : ∀ k ∈ ks, k = m) : Contiguous (ms ++ ks) ∧ (ms ++ ks).getLast? = some m := by
  induction ks using List.reverseRecOn with
  | nil => exact ⟨by rwa [List.append_nil], by rwa [List.append_nil]⟩
  | append_singleton ks k ih =>
    obtain ⟨hcont, hlast'⟩ := ih fun x hx => hks x (List.mem_append_left _ hx)
    obtain rfl := hks k (List.mem_append_right _ (List.mem_singleton.2 rfl))
    rw [← List.append_assoc]
    exact ⟨contiguous_concat.2 ⟨hcont, fun _ => hlast'⟩, List.getLast?_concat ..⟩

end Rows

/-! ## Orders of arrival -/

section Orders

variable {eastern : Timestamp → ℕ} {n : ℕ} {ts pre post : List MarketTickEvent} {d e : MarketTickEvent} {m : Timestamp}

/-- The rows and the evaluations that ticks lead to are right. -/
structure MinutesRight (eastern : Timestamp → ℕ) (n : ℕ) (ts : List MarketTickEvent) : Prop where
  rows : ∀ r ∈ (minuteRows eastern n ts).rows, ExactBar (ticksOf ts r.timestamp) r
  once : ((evaluationsOf eastern n ts).map Evaluation.minute).Nodup
  complete : ∀ ev ∈ evaluationsOf eastern n ts, ∀ e ∈ ts.drop ev.position, e.close.isSome = true →
    ev.minute ≠ some e.minute

/-- A price in a later minute than all before. -/
def Onward (pre : List MarketTickEvent) (d : MarketTickEvent) : Prop :=
  d.close.isSome = true ∧ ∀ m ∈ minutes pre, m < d.minute

/-- The last tick that leaves a minute, for a new one that nothing leaves, or without a price and with none after it. -/
def Final (pre : List MarketTickEvent) (d : MarketTickEvent) (post : List MarketTickEvent) : Prop :=
  (d.close.isSome = true ∧ d.minute ∉ minutes pre ∧ ∀ e ∈ post, e.minute = d.minute) ∨
    (d.close = none ∧ ∀ e ∈ post, e.close = none ∧ ¬ Leaves pre e)

/-- Minutes are left for later ones only, the last one left apart. -/
def Orderly (ts : List MarketTickEvent) : Prop :=
  ∀ pre d post, ts = pre ++ d :: post → Leaves pre d → Onward pre d ∨ Final pre d post

/-- What holds while every minute was left for a later one. -/
structure Tidy (eastern : Timestamp → ℕ) (n : ℕ) (ts : List MarketTickEvent) : Prop where
  sorted : (minutes ts).Pairwise (· ≤ ·)
  past : ∀ ev ∈ evaluationsOf eastern n ts, ev.position ≤ ts.length ∧
    ∃ m last, ev.minute = some m ∧ m ∈ minutes ts ∧ (minutes ts).getLast? = some last ∧ m < last
  once : ((evaluationsOf eastern n ts).map Evaluation.minute).Nodup
  complete : ∀ ev ∈ evaluationsOf eastern n ts, ∀ e ∈ ts.drop ev.position, e.close.isSome = true →
    ev.minute ≠ some e.minute
  covered : ∀ m ∈ minutes ts, (minutes ts).getLast? ≠ some m → ∃ ev ∈ evaluationsOf eastern n ts, ev.minute = some m

theorem max?_of_sorted {ms : List Timestamp} {last : Timestamp} (h : ms.Pairwise (· ≤ ·))
    (hlast : ms.getLast? = some last) : ms.max? = some last :=
  List.max?_eq_some_iff.2 ⟨List.mem_of_getLast? hlast, fun _ hm => le_getLast_of_sorted h hlast hm⟩

/-- The minute of an evaluation in tidy ticks is the one that is left. -/
theorem Tidy.evaluation (h : Tidy eastern n pre) (hn : 0 < n) (hd : Leaves pre d) :
    ∃ ev last, evaluation eastern n pre d = [ev] ∧ ev.position = pre.length ∧ ev.minute = some last ∧
      (minutes pre).getLast? = some last ∧ last ≠ d.minute := by
  obtain ⟨ev, m, hev, hposition, hminute, hmax⟩ := @evaluation_of_leaves eastern n pre d hn hd
  obtain ⟨last, hlast, hne⟩ := hd
  rw [max?_of_sorted h.sorted hlast, Option.some.injEq] at hmax
  exact ⟨ev, last, hev, hposition, by rw [hminute, hmax], hlast, hne⟩

theorem Tidy.nil : Tidy eastern n [] where
  sorted := List.Pairwise.nil
  past _ hev := absurd hev List.not_mem_nil
  once := List.nodup_nil
  complete _ hev := absurd hev List.not_mem_nil
  covered _ hm := absurd hm List.not_mem_nil

/-- A tick that stays in the last minute. -/
theorem Tidy.stay (h : Tidy eastern n ts) (he : ¬ Leaves ts e) : Tidy eastern n (ts ++ [e]) := by
  have hevals : evaluationsOf eastern n (ts ++ [e]) = evaluationsOf eastern n ts := by
    rw [evaluationsOf_concat, evaluation_of_not_leaves he, List.append_nil]
  have hdrop {ev : Evaluation} (hev : ev ∈ evaluationsOf eastern n ts) {x : MarketTickEvent}
      (hx : x ∈ (ts ++ [e]).drop ev.position) : x ∈ ts.drop ev.position ∨ x = e := by
    rw [List.drop_append_of_le_length (h.past ev hev).1] at hx
    exact (List.mem_append.1 hx).imp_right List.mem_singleton.1
  cases hclose : e.close.isSome with
  | false =>
    have hminutes : minutes (ts ++ [e]) = minutes ts := by rw [minutes_append, minutes_blank hclose, List.append_nil]
    refine ⟨by rw [hminutes]; exact h.sorted, ?_, by rw [hevals]; exact h.once, ?_, by rw [hminutes, hevals]; exact h.covered⟩
    · rw [hevals, hminutes]
      exact fun ev hev => ⟨(h.past ev hev).1.trans (by simp), (h.past ev hev).2⟩
    · rw [hevals]
      intro ev hev x hx hprice
      rcases hdrop hev hx with hx | rfl
      · exact h.complete ev hev x hx hprice
      · rw [hclose] at hprice
        cases hprice
  | true =>
    have hminutes : minutes (ts ++ [e]) = minutes ts ++ [e.minute] := by rw [minutes_append, minutes_priced hclose]
    have hlast {last : Timestamp} (hlast : (minutes ts).getLast? = some last) : last = e.minute := by
      by_contra hne
      exact he ⟨last, hlast, hne⟩
    refine ⟨?_, ?_, by rw [hevals]; exact h.once, ?_, ?_⟩
    · rw [hminutes, List.pairwise_append]
      refine ⟨h.sorted, List.pairwise_singleton .., fun m hm k hk => ?_⟩
      obtain rfl := List.mem_singleton.1 hk
      obtain ⟨last, hl⟩ := Option.isSome_iff_exists.1 (List.getLast?_isSome.2 (List.ne_nil_of_mem hm))
      exact hlast hl ▸ le_getLast_of_sorted h.sorted hl hm
    · rw [hevals, hminutes]
      intro ev hev
      obtain ⟨hposition, m, last, hm, hmem, hl, hlt⟩ := h.past ev hev
      refine ⟨hposition.trans (by simp), m, e.minute, hm, List.mem_append_left _ hmem, List.getLast?_concat .., ?_⟩
      exact hlast hl ▸ hlt
    · rw [hevals]
      intro ev hev x hx hprice
      rcases hdrop hev hx with hx | rfl
      · exact h.complete ev hev x hx hprice
      · obtain ⟨-, m, last, hm, -, hl, hlt⟩ := h.past ev hev
        rw [hm, ← hlast hl]
        exact fun hc => hlt.ne (Option.some.inj hc)
    · rw [hevals, hminutes, List.getLast?_concat]
      intro m hm hne
      rcases List.mem_append.1 hm with hm | hm
      · exact h.covered m hm fun hl => hne (by rw [hlast hl])
      · exact absurd (by rw [List.mem_singleton.1 hm]) hne

/-- A tick that goes on to a later minute. -/
theorem Tidy.onward (h : Tidy eastern n ts) (hn : 0 < n) (he : Leaves ts e) (hon : Onward ts e) :
    Tidy eastern n (ts ++ [e]) := by
  obtain ⟨new, last, hnew, hposition, hminute, hlast, -⟩ := h.evaluation hn he
  have hminutes : minutes (ts ++ [e]) = minutes ts ++ [e.minute] := by rw [minutes_append, minutes_priced hon.1]
  have hlt : last < e.minute := hon.2 last (List.mem_of_getLast? hlast)
  have hold {ev : Evaluation} (hev : ev ∈ evaluationsOf eastern n ts) : ∃ m, ev.minute = some m ∧ m < last := by
    obtain ⟨-, m, last', hm, -, hl, hlt'⟩ := h.past ev hev
    rw [hlast, Option.some.injEq] at hl
    exact ⟨m, hm, hl ▸ hlt'⟩
  have hevals : evaluationsOf eastern n (ts ++ [e]) = evaluationsOf eastern n ts ++ [new] := by
    rw [evaluationsOf_concat, hnew]
  refine ⟨?_, ?_, ?_, ?_, ?_⟩
  · rw [hminutes, List.pairwise_append]
    refine ⟨h.sorted, List.pairwise_singleton .., fun m hm k hk => ?_⟩
    obtain rfl := List.mem_singleton.1 hk
    exact (hon.2 m hm).le
  · rw [hevals, hminutes, List.getLast?_concat]
    intro ev hev
    rcases List.mem_append.1 hev with hev | hev
    · obtain ⟨hpos, m, last', hm, hmem, -⟩ := h.past ev hev
      exact ⟨hpos.trans (by simp), m, e.minute, hm, List.mem_append_left _ hmem, rfl, hon.2 m hmem⟩
    · rw [List.mem_singleton.1 hev]
      have hmem := List.mem_of_getLast? hlast
      exact ⟨by rw [hposition]; simp, last, e.minute, hminute, List.mem_append_left _ hmem, rfl, hlt⟩
  · rw [hevals, List.map_append, List.nodup_append]
    refine ⟨h.once, List.nodup_singleton _, fun m hm k hk hmk => ?_⟩
    obtain ⟨ev, hev, rfl⟩ := List.mem_map.1 hm
    obtain ⟨m', hm', hlt'⟩ := hold hev
    rw [List.mem_singleton.1 hk, hminute, hm', Option.some.injEq] at hmk
    exact hlt'.ne hmk
  · rw [hevals]
    intro ev hev x hx hprice
    rcases List.mem_append.1 hev with hev | hev
    · rw [List.drop_append_of_le_length (h.past ev hev).1] at hx
      rcases List.mem_append.1 hx with hx | hx
      · exact h.complete ev hev x hx hprice
      · obtain ⟨m, hm, hlt'⟩ := hold hev
        rw [List.mem_singleton.1 hx, hm]
        exact fun hc => (hlt'.trans hlt).ne (Option.some.inj hc)
    · rw [List.mem_singleton.1 hev] at hx ⊢
      rw [hposition, List.drop_left, List.mem_singleton] at hx
      rw [hx, hminute]
      exact fun hc => hlt.ne (Option.some.inj hc)
  · rw [hevals, hminutes, List.getLast?_concat]
    intro m hm hne
    rcases List.mem_append.1 hm with hm | hm
    · by_cases hml : m = last
      · exact ⟨new, List.mem_append_right _ (List.mem_singleton.2 rfl), by rw [hminute, hml]⟩
      · obtain ⟨ev, hev, hevm⟩ := h.covered m hm fun hl => hml (Option.some.inj (hl.symm.trans hlast))
        exact ⟨ev, List.mem_append_left _ hev, hevm⟩
    · exact absurd (by rw [List.mem_singleton.1 hm]) hne

theorem Tidy.right (h : Tidy eastern n ts) : MinutesRight eastern n ts :=
  ⟨fun _ hr => rows_of_contiguous (contiguous_of_sorted h.sorted) hr, h.once, h.complete⟩

/-- After the last minute was left, for a new minute or without a price. -/
def Ended (eastern : Timestamp → ℕ) (n : ℕ) (ts : List MarketTickEvent) : Prop :=
  ∃ pre d post, ts = pre ++ d :: post ∧ Tidy eastern n pre ∧ Leaves pre d ∧ ¬ Onward pre d ∧ Final pre d post

theorem Orderly.tidy_or_ended (h : Orderly ts) (hn : 0 < n) : Tidy eastern n ts ∨ Ended eastern n ts := by
  induction ts using List.reverseRecOn with
  | nil => exact .inl .nil
  | append_singleton ts e ih =>
    -- what is asked of the ticks up to `e` is asked of those before it
    have hbefore : Orderly ts := by
      intro pre d post hsplit hd
      rcases h pre d (post ++ [e]) (by rw [hsplit]; simp) hd with hon | hfinal
      · exact .inl hon
      · refine .inr (hfinal.imp ?_ ?_)
        · exact fun hf => ⟨hf.1, hf.2.1, fun x hx => hf.2.2 x (List.mem_append_left _ hx)⟩
        · exact fun hf => ⟨hf.1, fun x hx => hf.2 x (List.mem_append_left _ hx)⟩
    rcases ih hbefore with htidy | ⟨pre, d, post, hsplit, htidy, hd, hon, -⟩
    · by_cases he : Leaves ts e
      · rcases h ts e [] rfl he with hon | hfinal
        · exact .inl (htidy.onward hn he hon)
        · by_cases hon : Onward ts e
          · exact .inl (htidy.onward hn he hon)
          · exact .inr ⟨ts, e, [], rfl, htidy, he, hon, hfinal⟩
      · exact .inl (htidy.stay he)
    · have hsplit' : ts ++ [e] = pre ++ d :: (post ++ [e]) := by rw [hsplit]; simp
      exact .inr ⟨pre, d, post ++ [e], hsplit', htidy, hd, hon, (h pre d _ hsplit' hd).resolve_left hon⟩

theorem evaluationsOf_split (ts pre post : List MarketTickEvent) (d : MarketTickEvent) (h : ts = pre ++ d :: post) :
    evaluationsOf eastern n ts =
      evaluationsOf eastern n pre ++ (evaluation eastern n pre d ++ evaluationsFrom eastern n (pre ++ [d]) post) := by
  rw [h, evaluationsOf, evaluationsFrom_append]
  rfl

/-- Nothing is evaluated after the last minute was left, and nothing is added to an evaluated one. -/
theorem Ended.right (h : Ended eastern n ts) (hn : 0 < n) : MinutesRight eastern n ts := by
  obtain ⟨pre, d, post, hsplit, htidy, hd, -, hfinal⟩ := h
  obtain ⟨new, last, hnew, hposition, hminute, hlast, hne⟩ := htidy.evaluation hn hd
  have hmem := List.mem_of_getLast? hlast
  -- the minute of what comes after: a new one, or that of no price
  have hafter : ∀ x ∈ d :: post, x.close.isSome = true → x.minute ∉ minutes pre := by
    intro x hx hprice
    rcases hfinal with ⟨-, hfresh, hpost⟩ | ⟨hblank, hpost⟩
    · rcases List.mem_cons.1 hx with rfl | hx
      · exact hfresh
      · rw [hpost x hx]
        exact hfresh
    · rcases List.mem_cons.1 hx with rfl | hx
      · rw [hblank] at hprice
        cases hprice
      · rw [(hpost x hx).1] at hprice
        cases hprice
  have hrest : evaluationsFrom eastern n (pre ++ [d]) post = [] := by
    rcases hfinal with ⟨hprice, -, hpost⟩ | ⟨hblank, hpost⟩
    · refine evaluationsFrom_of_stays (m := d.minute) ?_ hpost
      rw [minutes_append, minutes_priced hprice, List.getLast?_concat]
    · refine evaluationsFrom_of_stays (m := last) ?_ fun x hx => ?_
      · rw [minutes_append, minutes_blank (by rw [hblank]; rfl), List.append_nil, hlast]
      · by_contra hx'
        exact (hpost x hx).2 ⟨last, hlast, Ne.symm hx'⟩
  have hcont : Contiguous (minutes ts) := by
    have hpre := contiguous_of_sorted htidy.sorted
    rw [hsplit, minutes_append, ← List.singleton_append, minutes_append]
    rcases hfinal with ⟨hprice, hfresh, hpost⟩ | ⟨hblank, hpost⟩
    · rw [minutes_priced hprice, ← List.append_assoc]
      refine (contiguous_append (contiguous_concat.2 ⟨hpre, fun h => absurd h hfresh⟩) (List.getLast?_concat ..) ?_).1
      exact fun k hk => eq_of_mem_minutes hpost hk
    · have hnone : minutes post = [] := by
        refine List.eq_nil_iff_forall_not_mem.2 fun k hk => ?_
        obtain ⟨x, hx, hprice, -⟩ := mem_minutes.1 hk
        rw [(hpost x hx).1] at hprice
        cases hprice
      rw [minutes_blank (by rw [hblank]; rfl), hnone, List.append_nil, List.append_nil]
      exact hpre
  have hevals : evaluationsOf eastern n ts = evaluationsOf eastern n pre ++ [new] := by
    rw [evaluationsOf_split ts pre post d hsplit, hnew, hrest, List.append_nil]
  refine ⟨fun r hr => rows_of_contiguous hcont hr, ?_, ?_⟩
  · rw [hevals, List.map_append, List.nodup_append]
    refine ⟨htidy.once, List.nodup_singleton _, fun m hm k hk hmk => ?_⟩
    obtain ⟨ev, hev, rfl⟩ := List.mem_map.1 hm
    obtain ⟨-, m', last', hm', -, hl, hlt⟩ := htidy.past ev hev
    rw [List.mem_singleton.1 hk, hminute, hm', Option.some.injEq] at hmk
    rw [hlast, Option.some.injEq] at hl
    exact hlt.ne (hmk.trans hl)
  · rw [hevals, hsplit]
    intro ev hev x hx hprice
    rcases List.mem_append.1 hev with hev | hev
    · obtain ⟨hpos, m, -, hm, hmpre, -⟩ := htidy.past ev hev
      rw [List.drop_append_of_le_length hpos] at hx
      rcases List.mem_append.1 hx with hx | hx
      · exact htidy.complete ev hev x hx hprice
      · rw [hm]
        exact fun hc => hafter x hx hprice (Option.some.inj hc ▸ hmpre)
    · rw [List.mem_singleton.1 hev] at hx ⊢
      rw [hposition, List.drop_left] at hx
      rw [hminute]
      exact fun hc => hafter x hx hprice (Option.some.inj hc ▸ hmem)

/-! ## What the rows and the evaluations tell of the ticks -/

theorem getLast?_minutes_append {xs ys : List MarketTickEvent} (hxs : (minutes xs).getLast? = some m)
    (hys : ∀ e ∈ ys, e.minute = m) : (minutes (xs ++ ys)).getLast? = some m := by
  rw [minutes_append, List.getLast?_append, hxs]
  cases hl : (minutes ys).getLast? with
  | none => rfl
  | some k => exact congrArg some (eq_of_mem_minutes hys (List.mem_of_getLast? hl))

/-- A minute that is left, when another one is left later, is left for a later one: or it is evaluated twice. -/
theorem MinutesRight.onward (h : MinutesRight eastern n ts) (hn : 0 < n) {d' : MarketTickEvent}
    {mid : List MarketTickEvent} (hsplit : ts = pre ++ d :: (mid ++ d' :: post)) (hd : Leaves pre d)
    (hm : (minutes (pre ++ [d])).getLast? = some m) (hmid : ∀ e ∈ mid, e.minute = m) (hd' : d'.minute ≠ m) :
    Onward pre d := by
  have hlast' : (minutes (pre ++ [d] ++ mid)).getLast? = some m := getLast?_minutes_append hm hmid
  obtain ⟨ev, k, hev, -, hk, hmax⟩ := @evaluation_of_leaves eastern n pre d hn hd
  obtain ⟨ev', k', hev', -, hk', hmax'⟩ := @evaluation_of_leaves eastern n _ d' hn ⟨m, hlast', hd'.symm⟩
  have htwice : k ≠ k' := by
    intro hkk
    have honce := h.once
    rw [evaluationsOf_split ts pre _ d hsplit, evaluationsFrom_append, evaluationsFrom, hev, hev', List.map_append,
      List.singleton_append, List.map_cons, List.nodup_middle, List.nodup_cons] at honce
    refine honce.1 ?_
    simp [hk, hk', hkk]
  -- the latest minute has changed, and can only have done so with `d`
  have hle (x : Timestamp) (hx : x ∈ minutes pre) : x ≤ k := (List.max?_eq_some_iff.1 hmax).2 x hx
  have hkmem : k ∈ minutes pre := (List.max?_eq_some_iff.1 hmax).1
  have hlt : k < k' :=
    lt_of_le_of_ne ((List.max?_eq_some_iff.1 hmax').2 k (by rw [minutes_append, minutes_append]; simp [hkmem])) htwice
  have hk'mem := (List.max?_eq_some_iff.1 hmax').1
  rw [minutes_append, minutes_append, List.mem_append, List.mem_append] at hk'mem
  have hk'm : k' = m ∨ k' ∈ minutes [d] := by
    rcases hk'mem with (hk'mem | hk'mem) | hk'mem
    · exact absurd (hle k' hk'mem) hlt.not_ge
    · exact .inr hk'mem
    · exact .inl (eq_of_mem_minutes hmid hk'mem)
  cases hprice : d.close.isSome with
  | false =>
    rw [minutes_append, minutes_blank hprice, List.append_nil] at hm
    rw [minutes_blank hprice] at hk'm
    have hk'm := hk'm.resolve_right List.not_mem_nil
    exact absurd (hle k' (hk'm ▸ List.mem_of_getLast? hm)) hlt.not_ge
  | true =>
    rw [minutes_append, minutes_priced hprice, List.getLast?_concat, Option.some.injEq] at hm
    rw [minutes_priced hprice, List.mem_singleton, ← hm, or_self] at hk'm
    exact ⟨hprice, fun x hx => (hle x hx).trans_lt (hk'm ▸ hlt)⟩

theorem exists_last_of_leaves (hd : Leaves pre d) : ∃ m, (minutes (pre ++ [d])).getLast? = some m := by
  obtain ⟨last, hlast, -⟩ := hd
  rw [minutes_append]
  cases hprice : d.close.isSome with
  | false => exact ⟨last, by rw [minutes_blank hprice, List.append_nil, hlast]⟩
  | true => exact ⟨d.minute, by rw [minutes_priced hprice, List.getLast?_concat]⟩

/-- Ticks before one that leaves a minute are tidy. -/
theorem MinutesRight.tidy (h : MinutesRight eastern n ts) (hn : 0 < n) (hsplit : ts = pre ++ d :: post)
    (hd : Leaves pre d) : Tidy eastern n pre := by
  suffices hall : ∀ q r, pre = q ++ r → Tidy eastern n q from hall pre [] (List.append_nil pre).symm
  intro q
  induction q using List.reverseRecOn with
  | nil => exact fun r _ => .nil
  | append_singleton q e ih =>
    intro r hr
    have htidy := ih (e :: r) (by rw [hr]; simp)
    by_cases he : Leaves q e
    · refine htidy.onward hn he ?_
      obtain ⟨m, hm⟩ := exists_last_of_leaves he
      rcases forall_or_first_not (·.minute = m) (r ++ d :: post) with hall | ⟨mid, d', post', hmid, hstay, hd'⟩
      · -- then `d` would not leave
        exfalso
        obtain ⟨last, hlast, hne⟩ := hd
        have hstay := getLast?_minutes_append hm fun x hx => hall x (List.mem_append_left _ hx)
        rw [← hr, hlast, Option.some.injEq] at hstay
        exact hne (hstay.trans (hall d (by simp)).symm)
      · have hsplit' : ts = q ++ e :: (mid ++ d' :: post') := by
          rw [← hmid, hsplit, hr]
          simp
        exact h.onward hn hsplit' he hm hstay hd'
    · exact htidy.stay he

theorem MinutesRight.orderly (h : MinutesRight eastern n ts) (hn : 0 < n) : Orderly ts := by
  intro pre d post hsplit hd
  have htidy := h.tidy hn hsplit hd
  obtain ⟨m, hm⟩ := exists_last_of_leaves hd
  rcases forall_or_first_not (·.minute = m) post with hstay | ⟨mid, d', post', hpost, hmid, hd'⟩
  · refine .inr ?_
    obtain ⟨new, last, hnew, hposition, hminute, hlast, hne⟩ := htidy.evaluation hn hd
    rw [minutes_append] at hm
    cases hprice : d.close.isSome with
    | true =>
      rw [minutes_priced hprice, List.getLast?_concat, Option.some.injEq] at hm
      subst hm
      refine .inl ⟨hprice, fun hseen => ?_, hstay⟩
      -- the minute that `d` comes back to was evaluated before
      obtain ⟨ev, hev, hevm⟩ := htidy.covered d.minute hseen fun hl => hne (Option.some.inj (hlast.symm.trans hl))
      refine h.complete ev ?_ d ?_ hprice hevm
      · rw [evaluationsOf_split ts pre post d hsplit]
        exact List.mem_append_left _ hev
      · rw [hsplit, List.drop_append_of_le_length (htidy.past ev hev).1]
        simp
    | false =>
      rw [minutes_blank hprice, List.append_nil, hlast, Option.some.injEq] at hm
      subst hm
      refine .inr ⟨Option.isNone_iff_eq_none.1 (by simpa using hprice), fun x hx => ⟨?_, ?_⟩⟩
      · -- a price would be added to the minute just evaluated
        by_contra hx'
        refine h.complete new ?_ x ?_ (Option.isSome_iff_ne_none.2 hx') (by rw [hminute, hstay x hx])
        · rw [evaluationsOf_split ts pre post d hsplit, hnew]
          simp
        · rw [hsplit, hposition, List.drop_left]
          exact List.mem_cons_of_mem _ hx
      · rintro ⟨k, hk, hne'⟩
        rw [hlast, Option.some.injEq] at hk
        exact hne' (hk ▸ (hstay x hx).symm)
  · exact .inl (h.onward hn (hsplit.trans (by rw [hpost])) hd hm hmid hd')

end Orders

/-! ## The scanner -/

section Scanner

variable {eastern : Timestamp → ℕ}

/-- A buffer that holds nothing has nothing evaluated. -/
theorem minutesRight_zero (ts : List MarketTickEvent) : MinutesRight eastern 0 ts := by
  have hrows (xs : List MarketTickEvent) : (minuteRows eastern 0 xs).rows = [] := by
    have hcard := (minuteRows eastern 0 xs).card_keys
    rw [keys_minuteRows, largest_zero, Finset.card_empty] at hcard
    exact List.length_eq_zero_iff.1 hcard.symm
  have hevals (pre xs : List MarketTickEvent) : evaluationsFrom eastern 0 pre xs = [] := by
    induction xs generalizing pre with
    | nil => rfl
    | cons e xs ih => rw [evaluationsFrom, ih, evaluation, if_neg fun hc => hc.2 (hrows pre), List.append_nil]
  have hnone : evaluationsOf eastern 0 ts = [] := hevals [] ts
  refine ⟨fun r hr => ?_, ?_, fun ev hev => ?_⟩
  · rw [hrows] at hr
    cases hr
  · rw [hnone]
    exact List.nodup_nil
  · rw [hnone] at hev
    cases hev

/-- Every row of a symbol is the exact bar of its minute; no minute is evaluated twice, and to none is a tick added from
the evaluation on. -/
structure MinuteBarsExact (t : Trace) (key : Symbol) : Prop where
  rows : ∀ r ∈ (t.scanner.buffer.bars key).rows, ExactBar (ticksOf (t.accepted key) r.timestamp) r
  once : ((t.evaluations key).map Evaluation.minute).Nodup
  complete : ∀ ev ∈ t.evaluations key, ∀ e ∈ (t.accepted key).drop ev.position, e.close.isSome = true →
    ev.minute ≠ some e.minute

/-- **Exact minute bars.** After a run, the minutes of a symbol are exact and evaluated once for exactly the orders of
arrival that leave a minute only for a later one. -/
theorem minute_bars_exact_iff (config : QuantConfig) (ds : List Delivery) (key : Symbol) :
    MinuteBarsExact (Trace.run eastern config ds) key ↔
      config.maxBarsPerSymbol = 0 ∨ Orderly ((Trace.run eastern config ds).accepted key) := by
  have hfollows := @follows_run eastern config key ds
  have hright : MinuteBarsExact (Trace.run eastern config ds) key ↔
      MinutesRight eastern config.maxBarsPerSymbol ((Trace.run eastern config ds).accepted key) := by
    constructor
    · rintro ⟨hrows, honce, hcomplete⟩
      rw [hfollows.rows] at hrows
      rw [hfollows.evaluations] at honce hcomplete
      exact ⟨hrows, honce, hcomplete⟩
    · intro h
      refine ⟨?_, ?_, ?_⟩
      · rw [hfollows.rows]
        exact h.rows
      · rw [hfollows.evaluations]
        exact h.once
      · rw [hfollows.evaluations]
        exact h.complete
  rw [hright]
  rcases Nat.eq_zero_or_pos config.maxBarsPerSymbol with hzero | hpos
  · rw [hzero]
    exact iff_of_true (minutesRight_zero _) (.inl rfl)
  · constructor
    · exact fun h => .inr (h.orderly hpos)
    · rintro (hzero | horderly)
      · exact absurd hzero hpos.ne'
      · rcases horderly.tidy_or_ended hpos with htidy | hended
        · exact htidy.right
        · exact hended.right hpos

/-- A tick of the first minute that arrives after one of the second. -/
def lateTick : List Delivery :=
  let tick (t : ℕ) (price : ℚ) : Delivery :=
    ⟨⟨.bar, "AAPL", t * second, none, none, none, none, none, some price, some 1⟩, none⟩
  [tick 10 10, tick 65 11, tick 50 12]

def quantConfig : QuantConfig := ⟨200, 15, 210, true, 60, 60⟩

/-- The late tick takes the row of its minute over, and the first tick is gone. -/
theorem late_tick_replaces_row : ¬ MinuteBarsExact (Trace.run (fun _ => 0) quantConfig lateTick) "AAPL" := by
  intro h
  have hrow : (⟨0, some 12, some 12, some 12, 12, some 1, .closed⟩ : Bar) ∈
      ((Trace.run (fun _ => 0) quantConfig lateTick).scanner.buffer.bars "AAPL").rows := by decide +kernel
  exact absurd (h.rows _ hrow).volume (by decide +kernel)

end Scanner

end TalonX.Quant
