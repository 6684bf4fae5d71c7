import TalonX.Backtest.MarketState
import TalonX.Quant.MinuteExact

/-!
# Coarse bars and minute bars

The scanner rolls the ticks up into coarse bars, and the replay rolls up the minute bars of these ticks.

- `coarse_follows_run`: the coarse bars of the scanner are those of the accepted ticks;
- `minuteHistory`: the last row of every minute; `flatten_minutes`: the ticks of its minutes are the ticks;
- `coarseBar`: the bar that a candle makes; the replay finalises these (`replayed_eq`);
- `Shaped`: ticks of a bucket that roll up like their prices; `coarse_bars_agree_iff`: exactly when ticks in order of time
  give the same coarse bars live and in the replay.
-/

set_option autoImplicit false

namespace TalonX.Quant

open Transact

/-! ## The scanner -/

section Scanner

variable {eastern : Timestamp → ℕ} {config : QuantConfig} {key : Symbol}

/-- The aggregators roll up the accepted ticks of a symbol. -/
structure CoarseFollows (eastern : Timestamp → ℕ) (config : QuantConfig) (key : Symbol) (t : Trace) : Prop where
  htfConfig : t.scanner.htfAggregator.intervalMinutes = config.htfBarIntervalMinutes ∧
    t.scanner.htfAggregator.rthOnly = config.rthOnlyHtfSma
  config60m : t.scanner.aggregator60m.intervalMinutes = config.regime60mBarIntervalMinutes ∧
    t.scanner.aggregator60m.rthOnly = false
  cutoff : ∀ k, t.scanner.bootstrap60mCutoff k = none
  htf : t.scanner.htfAggregator.accumulators key =
    formingBucket config.htfBarIntervalMinutes ((t.accepted key).map (·.subBar))
  forming60m : t.scanner.aggregator60m.accumulators key =
    formingBucket config.regime60mBarIntervalMinutes ((t.accepted key).map (·.subBar))
  htfBars : t.htfBars key =
    finalizedBars eastern config.htfBarIntervalMinutes config.rthOnlyHtfSma ((t.accepted key).map (·.subBar))
  bars60m : t.bars60m key =
    finalizedBars eastern config.regime60mBarIntervalMinutes false ((t.accepted key).map (·.subBar))

/-- The minute buffer is apart from the coarse ones. -/
theorem coarse_update1mBuffer (s : QuantScanner) (e : MarketTickEvent) :
    (s.update1mBuffer eastern e).htfAggregator = s.htfAggregator ∧
      (s.update1mBuffer eastern e).aggregator60m = s.aggregator60m ∧
      (s.update1mBuffer eastern e).bootstrap60mCutoff = s.bootstrap60mCutoff := by
  unfold QuantScanner.update1mBuffer
  cases e.close <;> exact ⟨rfl, rfl, rfl⟩

theorem coarse_acceptTick (s : QuantScanner) (e : MarketTickEvent) (hcutoff : ∀ k, s.bootstrap60mCutoff k = none) :
    (s.acceptTick eastern e).accepted = true ∧
      ((s.acceptTick eastern e).htfBar, (s.acceptTick eastern e).scanner.htfAggregator) =
        s.htfAggregator.update eastern e.symbol.toUpper e.subBar ∧
      ((s.acceptTick eastern e).bar60m, (s.acceptTick eastern e).scanner.aggregator60m) =
        s.aggregator60m.update eastern e.symbol.toUpper.toUpper e.subBar ∧
      (s.acceptTick eastern e).scanner.bootstrap60mCutoff = s.bootstrap60mCutoff := by
  obtain ⟨hhtf, h60m, hcut⟩ := @coarse_update1mBuffer eastern s e
  unfold QuantScanner.acceptTick QuantScanner.updateHtfBuffer QuantScanner.updateRegimeBuffer60m QuantScanner.feed60mBar
  simp only [hhtf, h60m, hcut, hcutoff, Option.any_none, Bool.false_eq_true, if_false]
  exact ⟨trivial, trivial, trivial, trivial⟩

theorem CoarseFollows.deliver {t : Trace} (h : CoarseFollows eastern config key t) (d : Delivery) :
    CoarseFollows eastern config key (t.deliver eastern d) := by
  unfold Trace.deliver
  dsimp only
  rcases t.scanner.handle_cases eastern d with ⟨keys, quotes, hd⟩ | ⟨keys, hd⟩
  · rw [hd]
    simp only [QuantScanner.Handled.dropped, Bool.false_eq_true, if_false, Option.toList_none, List.append_nil,
      Function.update_eq_self]
    exact ⟨h.htfConfig, h.config60m, h.cutoff, h.htf, h.forming60m, h.htfBars, h.bars60m⟩
  · obtain ⟨⟨hi, hr⟩, ⟨hi', hr'⟩, hcutoff, hf, hf', hb, hb'⟩ := h
    obtain ⟨haccepted, hhtf, h60m, hcut⟩ :=
      @coarse_acceptTick eastern { t.scanner with recentBarKeys := keys } d.event hcutoff
    rw [hd, haccepted]
    simp only [HtfBarAggregator.update_eq, hi, hr, hi', hr', Prod.mk.injEq, toUpper_toUpper] at hhtf h60m
    obtain ⟨hbar, hagg⟩ := hhtf
    obtain ⟨hbar', hagg'⟩ := h60m
    have hacc := congrArg HtfBarAggregator.accumulators hagg
    have hacc' := congrArg HtfBarAggregator.accumulators hagg'
    dsimp only at hacc hacc'
    by_cases hkey : key = d.event.symbol.toUpper
    · subst hkey
      refine ⟨?_, ?_, ?_, ?_, ?_, ?_, ?_⟩ <;> dsimp only
      · rw [hagg]
        exact ⟨rfl, rfl⟩
      · rw [hagg']
        exact ⟨rfl, rfl⟩
      · rwa [hcut]
      · rw [hacc, if_pos rfl, Function.update_self, Function.update_self, List.map_append, List.map_singleton,
          formingBucket_concat, hf]
      · rw [hacc', if_pos rfl, Function.update_self, Function.update_self, List.map_append, List.map_singleton,
          formingBucket_concat, hf']
      · rw [hbar, if_pos rfl, Function.update_self, Function.update_self, List.map_append, List.map_singleton,
          finalizedBars_concat, hb, hf]
      · rw [hbar', if_pos rfl, Function.update_self, Function.update_self, List.map_append, List.map_singleton,
          finalizedBars_concat, hb', hf']
    · refine ⟨?_, ?_, ?_, ?_, ?_, ?_, ?_⟩ <;> dsimp only
      · rw [hagg]
        exact ⟨rfl, rfl⟩
      · rw [hagg']
        exact ⟨rfl, rfl⟩
      · rwa [hcut]
      · rw [hacc, Function.update_of_ne hkey, Function.update_of_ne hkey, hf]
      · rw [hacc', Function.update_of_ne hkey, Function.update_of_ne hkey, hf']
      · rw [Function.update_of_ne hkey, Function.update_of_ne hkey, hb]
      · rw [Function.update_of_ne hkey, Function.update_of_ne hkey, hb']

theorem coarse_follows_run (ds : List Delivery) : CoarseFollows eastern config key (Trace.run eastern config ds) := by
  induction ds using List.reverseRecOn with
  | nil => exact ⟨⟨rfl, rfl⟩, ⟨rfl, rfl⟩, fun _ => rfl, rfl, rfl, rfl, rfl⟩
  | append_singleton ds d ih =>
    rw [Trace.run, List.foldl_concat]
    exact ih.deliver d

end Scanner

/-! ## Minutes in order of time -/

section Minutes

variable {eastern : Timestamp → ℕ} {interval : ℕ+} {ts : List MarketTickEvent} {b : Timestamp}

/-- The arguments of `update` for a row. -/
def Bar.subBar (r : Bar) : SubBar := ⟨r.timestamp, r.openPrice, r.high, r.low, some r.close, r.volume⟩

theorem bucket_subBar (r : Bar) : r.subBar.bucket interval = bucketStart interval r.timestamp := rfl

/-- The last row written for every minute, in order. -/
def minuteHistory (eastern : Timestamp → ℕ) (ts : List MarketTickEvent) : List Bar :=
  (runKeys id (minutes ts)).filterMap (lastWritten Bar.timestamp (minuteWrites eastern ts))

def MarketTickEvent.bucket (interval : ℕ+) (e : MarketTickEvent) : Timestamp := bucketStart interval e.timestamp

/-- The ticks of a bucket that carry a price. -/
def pricedIn (interval : ℕ+) (ts : List MarketTickEvent) (b : Timestamp) : List MarketTickEvent :=
  (ts.filter (·.close.isSome)).filter (·.bucket interval = b)

def bucketCandle (interval : ℕ+) (ts : List MarketTickEvent) (b : Timestamp) : Option (Candle ℚ) :=
  candle? ((pricedIn interval ts b).filterMap (·.candle))

theorem bucketStart_minute (e : MarketTickEvent) : bucketStart interval e.minute = e.bucket interval :=
  bucketStart_floorMinute interval e.timestamp

theorem ticksOf_eq (ts : List MarketTickEvent) (m : Timestamp) :
    ticksOf ts m = (ts.filter (·.close.isSome)).filter (·.minute = m) := by
  rw [ticksOf, List.filter_filter]
  refine List.filter_congr fun e _ => ?_
  by_cases h : e.minute = m <;> simp [h]

section Sorted

variable (h : ts.Pairwise (·.timestamp ≤ ·.timestamp))
include h

theorem minutes_sorted : (minutes ts).Pairwise (· ≤ ·) :=
  List.pairwise_map.2 ((h.filter _).imp fun hle => floorMinute_mono hle)

theorem buckets_sorted (interval : ℕ+) : (ts.map (·.bucket interval)).Pairwise (· ≤ ·) :=
  List.pairwise_map.2 (h.imp fun hle => bucketStart_mono interval hle)

theorem minuteHistory_eq : minuteHistory eastern ts = (runKeys id (minutes ts)).filterMap fun m =>
    (candle? ((ticksOf ts m).filterMap (·.candle))).map (minuteBar eastern m) :=
  List.filterMap_congr fun m _ => (exact_of_contiguous (contiguous_of_sorted (minutes_sorted h))).2 m

theorem rising_runKeys_minutes : (runKeys id (minutes ts)).Pairwise (· < ·) :=
  pairwise_runKeys (by rw [List.map_id]; exact minutes_sorted h)

/-- The candles of the minutes of a bucket make up the candle of the bucket. -/
theorem candle?_minutes (b : Timestamp) :
    candle? (((runKeys id (minutes ts)).filter (bucketStart interval · = b)).filterMap fun m =>
      candle? ((ticksOf ts m).filterMap (·.candle))) = bucketCandle interval ts b := by
  have hsorted : ((pricedIn interval ts b).map (·.minute)).Pairwise (· ≤ ·) :=
    List.pairwise_map.2 (((h.filter _).filter _).imp fun hle => floorMinute_mono hle)
  have hkeys : (runKeys id (minutes ts)).filter (bucketStart interval · = b) =
      runKeys (·.minute) (pricedIn interval ts b) := by
    refine eq_of_rising ((rising_runKeys_minutes h).filter _) (pairwise_runKeys hsorted) fun m => ?_
    rw [List.mem_filter, mem_runKeys, mem_runKeys, List.map_id, minutes, List.mem_map, List.mem_map, decide_eq_true_iff]
    constructor
    · rintro ⟨⟨e, he, rfl⟩, hb⟩
      exact ⟨e, List.mem_filter.2 ⟨he, decide_eq_true ((bucketStart_minute e).symm.trans hb)⟩, rfl⟩
    · rintro ⟨e, he, rfl⟩
      obtain ⟨he, hb⟩ := List.mem_filter.1 he
      exact ⟨⟨e, he, rfl⟩, (bucketStart_minute e).trans (of_decide_eq_true hb)⟩
  have hticks : ∀ m ∈ runKeys (·.minute) (pricedIn interval ts b),
      ticksOf ts m = (pricedIn interval ts b).filter (·.minute = m) := by
    intro m hm
    rw [← hkeys, List.mem_filter, decide_eq_true_iff] at hm
    rw [ticksOf_eq, pricedIn]
    conv_rhs => rw [List.filter_filter]
    refine List.filter_congr fun e _ => ?_
    by_cases hem : e.minute = m
    · have hb : e.bucket interval = b := by rw [← bucketStart_minute, hem, hm.2]
      simp [hem, hb]
    · simp [hem]
  have hparts : (runKeys (·.minute) (pricedIn interval ts b)).filterMap
        (fun m => candle? ((ticksOf ts m).filterMap (·.candle))) =
      (((runKeys (·.minute) (pricedIn interval ts b)).map fun m => (pricedIn interval ts b).filter (·.minute = m)).map
        (List.filterMap (·.candle))).filterMap candle? := by
    rw [List.filterMap_map, List.filterMap_map]
    refine List.filterMap_congr fun m hm => ?_
    rw [hticks m hm]
    rfl
  rw [hkeys, hparts, candle?_filterMap, ← List.filterMap_flatten, flatten_runs hsorted]
  rfl

end Sorted

end Minutes

/-! ## Buckets -/

section Buckets

variable {eastern : Timestamp → ℕ} {interval : ℕ+} {ts es : List MarketTickEvent} {b : Timestamp} {c : Candle ℚ}
  {a : HtfBucket}

/-- The bar that a candle makes. -/
def coarseBar (b : Timestamp) (c : Candle ℚ) : HtfBucket := ⟨b, some c.first, some c.high, some c.low, some c.last, c.volume⟩

/-- First open, highest high, lowest low, last close and total volume of rows. -/
structure AggregateOf (rows : List Bar) (a : HtfBucket) : Prop where
  openPrice : a.openPrice = rows.head?.bind (·.openPrice)
  high : a.high = (rows.filterMap (·.high)).max?
  low : a.low = (rows.filterMap (·.low)).min?
  close : a.close = rows.getLast?.map (·.close)
  volume : a.volume = (rows.map (·.volume.getD 0)).sum

/-- Ticks whose own open, extremes and volume are those of their prices. -/
structure Shaped (es : List MarketTickEvent) : Prop where
  openPrice : es.head?.bind (·.openPrice) = (es.filterMap (·.close)).head?
  high : (es.filterMap (·.high)).max? = (es.filterMap (·.close)).max?
  low : (es.filterMap (·.low)).min? = (es.filterMap (·.close)).min?
  volume : ((es.filter (·.close.isNone)).map (·.volume.getD 0)).sum = 0

theorem bucketBar_minutes (b : Timestamp) (ps : List (Timestamp × Candle ℚ)) :
    bucketBar b (ps.map fun p => (minuteBar eastern p.1 p.2).subBar) =
      (candle? (ps.map Prod.snd)).map (coarseBar b) := by
  induction ps using List.reverseRecOn with
  | nil => rfl
  | append_singleton ps p ih =>
    rw [List.map_append, List.map_singleton, bucketBar_concat, ih, List.map_append, List.map_singleton, candle?_concat]
    cases candle? (ps.map Prod.snd) with
    | none => rfl
    | some c => rfl

theorem aggregateOf_minutes {ps : List (Timestamp × Candle ℚ)} (h : candle? (ps.map Prod.snd) = some c) :
    AggregateOf (ps.map fun p => minuteBar eastern p.1 p.2) a ↔ a = coarseBar a.bucketStart c := by
  obtain ⟨hfirst, hhigh, hlow, hlast, hvolume⟩ := candle?_fields h
  rw [List.map_map] at hfirst hhigh hlow hlast hvolume
  have hopen : (ps.map fun p => minuteBar eastern p.1 p.2).head?.bind (·.openPrice) = some c.first := by
    rw [← hfirst, List.head?_map, List.head?_map]
    cases ps.head? <;> rfl
  have hhigh' : ((ps.map fun p => minuteBar eastern p.1 p.2).filterMap (·.high)).max? = some c.high := by
    rw [List.filterMap_map, ← hhigh, ← List.filterMap_eq_map]
    rfl
  have hlow' : ((ps.map fun p => minuteBar eastern p.1 p.2).filterMap (·.low)).min? = some c.low := by
    rw [List.filterMap_map, ← hlow, ← List.filterMap_eq_map]
    rfl
  have hclose : (ps.map fun p => minuteBar eastern p.1 p.2).getLast?.map (·.close) = some c.last := by
    rw [← hlast, List.getLast?_map, List.getLast?_map]
    cases ps.getLast? <;> rfl
  have hvolume' : ((ps.map fun p => minuteBar eastern p.1 p.2).map (·.volume.getD 0)).sum = c.volume := by
    rw [List.map_map, ← hvolume]
    rfl
  constructor
  · rintro ⟨h1, h2, h3, h4, h5⟩
    rw [hopen] at h1
    rw [hhigh'] at h2
    rw [hlow'] at h3
    rw [hclose] at h4
    rw [hvolume'] at h5
    cases a
    simp only at h1 h2 h3 h4 h5
    rw [h1, h2, h3, h4, h5]
    rfl
  · intro ha
    refine ⟨?_, ?_, ?_, ?_, ?_⟩
    · rw [hopen, ha]
      rfl
    · rw [hhigh', ha]
      rfl
    · rw [hlow', ha]
      rfl
    · rw [hclose, ha]
      rfl
    · rw [hvolume', ha]
      rfl

theorem sum_volume_split (es : List MarketTickEvent) : (es.map (·.volume.getD 0)).sum =
    ((es.filter (·.close.isSome)).map (·.volume.getD 0)).sum +
      ((es.filter (·.close.isNone)).map (·.volume.getD 0)).sum := by
  induction es with
  | nil => simp
  | cons e es ih =>
    cases he : e.close with
    | none => simp [he, ih, add_left_comm]
    | some p => simp [he, ih, add_assoc]

/-- Ticks roll up like their prices exactly when they are shaped like them. -/
theorem bucketBar_eq_coarseBar (ha : bucketBar b (es.map (·.subBar)) = some a)
    (hc : candle? ((es.filter (·.close.isSome)).filterMap (·.candle)) = some c) : a = coarseBar b c ↔ Shaped es := by
  obtain ⟨hstart, hopen, hhigh, hlow, hclose, hvolume⟩ := bucketBar_fields ha
  obtain ⟨hfirst', hhigh', hlow', hlast', hvolume'⟩ :=
    @exactBar_minuteBar (fun _ => 0) b _ _ (fun e he => (List.mem_filter.1 he).2) hc
  have hcloses : (es.filter (·.close.isSome)).filterMap (·.close) = es.filterMap (·.close) := by
    rw [List.filterMap_filter]
    refine List.filterMap_congr fun e _ => ?_
    cases e.close <;> rfl
  rw [hcloses] at hfirst' hhigh' hlow' hlast'
  simp only [minuteBar] at hfirst' hhigh' hlow' hlast' hvolume'
  have hopen : a.openPrice = es.head?.bind (·.openPrice) := by
    rw [hopen, List.head?_map]
    cases es.head? <;> rfl
  rw [List.filterMap_map] at hhigh hlow hclose
  rw [List.map_map] at hvolume
  have hsum : (es.map (·.volume.getD 0)).sum =
      c.volume + ((es.filter (·.close.isNone)).map (·.volume.getD 0)).sum := by
    rw [Option.some.inj hvolume']
    exact sum_volume_split es
  have hvol : a.volume = (es.map (·.volume.getD 0)).sum := hvolume
  constructor
  · rintro rfl
    refine ⟨?_, ?_, ?_, ?_⟩
    · exact hopen.symm.trans hfirst'
    · exact hhigh.symm.trans hhigh'
    · exact hlow.symm.trans hlow'
    · exact left_eq_add.1 (hvol.trans hsum)
  · rintro ⟨h1, h2, h3, h4⟩
    have hopen' : a.openPrice = some c.first := hopen.trans (h1.trans hfirst'.symm)
    have hh : a.high = some c.high := hhigh.trans (h2.trans hhigh'.symm)
    have hl : a.low = some c.low := hlow.trans (h3.trans hlow'.symm)
    have hcl : a.close = some c.last := hclose.trans hlast'.symm
    have hv : a.volume = c.volume := by rw [hvol, hsum, h4, add_zero]
    cases a
    simp only at hstart hopen' hh hl hcl hv
    rw [hstart, hopen', hh, hl, hcl, hv]
    rfl

end Buckets

/-! ## Live and replayed bars -/

section Agreement

variable {eastern : Timestamp → ℕ} {interval : ℕ+} {rthOnly : Bool} {ts : List MarketTickEvent} {b : Timestamp}

/-- The minutes of a bucket with their candles. -/
def minuteCandles (interval : ℕ+) (ts : List MarketTickEvent) (b : Timestamp) : List (Timestamp × Candle ℚ) :=
  ((runKeys id (minutes ts)).filter (bucketStart interval · = b)).filterMap fun m =>
    (candle? ((ticksOf ts m).filterMap (·.candle))).map (Prod.mk m)

/-- Finalised buckets with a price: the others are not added to a buffer. -/
def storedBars (bars : List HtfBucket) : List HtfBucket := bars.filter (·.close.isSome)

theorem mem_pricedIn {e : MarketTickEvent} :
    e ∈ pricedIn interval ts b ↔ e ∈ ts ∧ e.close.isSome = true ∧ e.bucket interval = b := by
  simp [pricedIn, and_comm]

theorem bucketCandle_eq_none : bucketCandle interval ts b = none ↔ pricedIn interval ts b = [] := by
  rw [bucketCandle, candle?_eq_none, List.filterMap_eq_nil_iff, List.eq_nil_iff_forall_not_mem]
  refine forall_congr' fun e => ⟨fun h he => ?_, fun h he => absurd he h⟩
  have hnone := h he
  obtain ⟨p, hp⟩ := Option.isSome_iff_exists.1 (mem_pricedIn.1 he).2.1
  rw [MarketTickEvent.candle, hp] at hnone
  cases hnone

theorem inBucket_ticks (b : Timestamp) : inBucket interval (ts.map (·.subBar)) b =
    (ts.filter (·.bucket interval = b)).map (·.subBar) := by
  rw [inBucket, List.filter_map]
  rfl

/-- A finalised bucket has a price when one of its ticks has one. -/
theorem isSome_close {a : HtfBucket} (ha : bucketBar b (inBucket interval (ts.map (·.subBar)) b) = some a) :
    a.close.isSome = true ↔ pricedIn interval ts b ≠ [] := by
  obtain ⟨-, -, -, -, hclose, -⟩ := bucketBar_fields ha
  rw [hclose, inBucket_ticks, List.filterMap_map, List.getLast?_isSome, ne_eq, List.filterMap_eq_nil_iff, not_iff_not,
    List.eq_nil_iff_forall_not_mem]
  constructor
  · intro h e he
    obtain ⟨hts, hprice, hb⟩ := mem_pricedIn.1 he
    have hnone : e.close = none := h e (List.mem_filter.2 ⟨hts, decide_eq_true hb⟩)
    rw [hnone] at hprice
    cases hprice
  · intro h e he
    obtain ⟨hts, hb⟩ := List.mem_filter.1 he
    by_contra hne
    exact h e (mem_pricedIn.2 ⟨hts, Option.isSome_iff_ne_none.2 hne, of_decide_eq_true hb⟩)

/-- The live bar of a bucket of the ticks. -/
def liveBar (interval : ℕ+) (ts : List MarketTickEvent) (b : Timestamp) : Option HtfBucket :=
  (bucketBar b (inBucket interval (ts.map (·.subBar)) b)).filter (·.close.isSome)

theorem isSome_liveBar : (liveBar interval ts b).isSome = true ↔ pricedIn interval ts b ≠ [] := by
  cases ha : bucketBar b (inBucket interval (ts.map (·.subBar)) b) with
  | none =>
    have hnil : inBucket interval (ts.map (·.subBar)) b = [] := by
      cases hb : inBucket interval (ts.map (·.subBar)) b with
      | nil => rfl
      | cons x xs => rw [hb] at ha; cases ha
    have hpriced : pricedIn interval ts b = [] := by
      refine List.eq_nil_iff_forall_not_mem.2 fun e he => ?_
      obtain ⟨hts, -, hb⟩ := mem_pricedIn.1 he
      rw [inBucket_ticks, List.map_eq_nil_iff] at hnil
      exact List.not_mem_nil (hnil ▸ List.mem_filter.2 ⟨hts, decide_eq_true hb⟩)
    rw [liveBar, ha, hpriced]
    simp
  | some a =>
    rw [← isSome_close ha, liveBar, ha, Option.filter_some]
    cases a.close.isSome <;> simp

/-- A bucket with a price has the bar of its candle when its ticks are shaped like their prices. -/
theorem liveBar_eq_iff {c : Candle ℚ} (hc : bucketCandle interval ts b = some c) :
    liveBar interval ts b = some (coarseBar b c) ↔ Shaped (ts.filter (·.bucket interval = b)) := by
  have hpriced : pricedIn interval ts b ≠ [] := fun hnil => by
    rw [bucketCandle_eq_none.2 hnil] at hc
    cases hc
  obtain ⟨a, ha⟩ := Option.isSome_iff_exists.1 (isSome_liveBar.2 hpriced)
  have hbar := (Option.filter_eq_some_iff.1 ha).1
  rw [ha, Option.some.injEq]
  refine bucketBar_eq_coarseBar (by rw [← inBucket_ticks]; exact hbar) ?_
  rw [← hc, bucketCandle, pricedIn, List.filter_comm]

section Sorted

variable (h : ts.Pairwise (·.timestamp ≤ ·.timestamp))
include h

theorem timestamps_minuteHistory : (minuteHistory eastern ts).map Bar.timestamp = runKeys id (minutes ts) := by
  rw [minuteHistory_eq h, List.map_filterMap]
  have hsome : ∀ m ∈ runKeys id (minutes ts), ((candle? ((ticksOf ts m).filterMap (·.candle))).map
      (minuteBar eastern m)).map Bar.timestamp = some m := by
    intro m hm
    rw [mem_runKeys, List.map_id] at hm
    cases hc : candle? ((ticksOf ts m).filterMap (·.candle)) with
    | some c => rfl
    | none =>
      obtain ⟨e, he, hprice, rfl⟩ := mem_minutes.1 hm
      obtain ⟨p, hp⟩ := Option.isSome_iff_exists.1 hprice
      have hmem : e ∈ ticksOf ts e.minute := List.mem_filter.2 ⟨he, by simp [hprice]⟩
      have hnone := List.filterMap_eq_nil_iff.1 (candle?_eq_none.1 hc) e hmem
      rw [MarketTickEvent.candle, hp] at hnone
      cases hnone
  rw [List.filterMap_congr hsome, List.filterMap_some]

/-- The rows of a bucket. -/
theorem filter_minuteHistory (b : Timestamp) :
    (minuteHistory eastern ts).filter (bucketStart interval ·.timestamp = b) =
      (minuteCandles interval ts b).map fun p => minuteBar eastern p.1 p.2 := by
  rw [minuteHistory_eq h, minuteCandles, List.filter_filterMap, List.map_filterMap, List.filterMap_filter]
  refine List.filterMap_congr fun m _ => ?_
  rw [Option.map_map]
  cases candle? ((ticksOf ts m).filterMap (·.candle)) with
  | none => simp
  | some c => by_cases hb : bucketStart interval m = b <;> simp [hb, minuteBar]

theorem candle?_minuteCandles (b : Timestamp) :
    candle? ((minuteCandles interval ts b).map Prod.snd) = bucketCandle interval ts b := by
  rw [← candle?_minutes h b, minuteCandles, List.map_filterMap]
  congr 1
  refine List.filterMap_congr fun m _ => ?_
  rw [Option.map_map]
  exact Option.map_id'

theorem history_sorted : (((minuteHistory eastern ts).map Bar.subBar).map (·.bucket interval)).Pairwise (· ≤ ·) := by
  have hrise := rising_runKeys_minutes h
  rw [← @timestamps_minuteHistory eastern ts h] at hrise
  rw [List.map_map]
  refine List.pairwise_map.2 ((List.pairwise_map.1 hrise).imp fun {r q} hlt => ?_)
  rw [Function.comp_apply, Function.comp_apply, bucket_subBar, bucket_subBar]
  exact bucketStart_mono interval hlt.le

/-- The replay finalises the candles of the buckets. -/
theorem replayed_eq : finalizedBars eastern interval rthOnly ((minuteHistory eastern ts).map Bar.subBar) =
    ((closedBuckets interval ((minuteHistory eastern ts).map Bar.subBar)).filter (keptBucket eastern rthOnly)).filterMap
      fun b => (bucketCandle interval ts b).map (coarseBar b) := by
  rw [(rolled_of_sorted (history_sorted h)).finalized]
  refine List.filterMap_congr fun b _ => ?_
  have hrows : inBucket interval ((minuteHistory eastern ts).map Bar.subBar) b =
      (minuteCandles interval ts b).map fun p => (minuteBar eastern p.1 p.2).subBar := by
    rw [inBucket, List.filter_map]
    have hfilter := @filter_minuteHistory eastern interval ts h b
    refine (congrArg (List.map Bar.subBar) hfilter).trans ?_
    rw [List.map_map]
    rfl
  rw [hrows, bucketBar_minutes, candle?_minuteCandles h]

/-- The minutes of the history are those of the ticks with a price. -/
theorem exists_history (p : Timestamp → Prop) :
    (∃ r ∈ minuteHistory eastern ts, p (bucketStart interval r.timestamp)) ↔
      ∃ e ∈ ts, e.close.isSome = true ∧ p (e.bucket interval) := by
  have hmem {m : Timestamp} : (∃ r ∈ minuteHistory eastern ts, r.timestamp = m) ↔ m ∈ minutes ts := by
    rw [← List.mem_map, timestamps_minuteHistory h, mem_runKeys, List.map_id]
  constructor
  · rintro ⟨r, hr, hp⟩
    obtain ⟨e, he, hprice, hm⟩ := mem_minutes.1 (hmem.1 ⟨r, hr, rfl⟩)
    exact ⟨e, he, hprice, by rwa [← bucketStart_minute, hm]⟩
  · rintro ⟨e, he, hprice, hp⟩
    obtain ⟨r, hr, hm⟩ := hmem.2 (mem_minutes.2 ⟨e, he, hprice, rfl⟩)
    exact ⟨r, hr, by rwa [hm, bucketStart_minute]⟩

/-- A bucket is closed in the replay when a later one has a price. -/
theorem mem_closedBuckets_history : b ∈ closedBuckets interval ((minuteHistory eastern ts).map Bar.subBar) ↔
    (∃ e ∈ ts, e.close.isSome = true ∧ e.bucket interval = b) ∧
      ∃ e ∈ ts, e.close.isSome = true ∧ b < e.bucket interval := by
  have hrows (p : Timestamp → Prop) : (∃ x ∈ (minuteHistory eastern ts).map Bar.subBar, p (x.bucket interval)) ↔
      ∃ e ∈ ts, e.close.isSome = true ∧ p (e.bucket interval) := by
    rw [← exists_history h p]
    constructor
    · rintro ⟨x, hx, hp⟩
      obtain ⟨r, hr, rfl⟩ := List.mem_map.1 hx
      exact ⟨r, hr, by rwa [← bucket_subBar]⟩
    · rintro ⟨r, hr, hp⟩
      exact ⟨r.subBar, List.mem_map_of_mem hr, by rwa [bucket_subBar]⟩
  exact (mem_closedBuckets (history_sorted h)).trans (and_congr (hrows (· = b)) (hrows (b < ·)))

theorem mem_closedBuckets_ticks : b ∈ closedBuckets interval (ts.map (·.subBar)) ↔
    (∃ e ∈ ts, e.bucket interval = b) ∧ ∃ e ∈ ts, b < e.bucket interval := by
  have hsorted : ((ts.map (·.subBar)).map (·.bucket interval)).Pairwise (· ≤ ·) := by
    rw [List.map_map]
    exact buckets_sorted h interval
  rw [mem_closedBuckets hsorted]
  simp [MarketTickEvent.subBar, SubBar.bucket, MarketTickEvent.bucket]

theorem stored_live_eq : storedBars (finalizedBars eastern interval rthOnly (ts.map (·.subBar))) =
    ((closedBuckets interval (ts.map (·.subBar))).filter (keptBucket eastern rthOnly)).filterMap (liveBar interval ts) := by
  have hsorted : ((ts.map (·.subBar)).map (·.bucket interval)).Pairwise (· ≤ ·) := by
    rw [List.map_map]
    exact buckets_sorted h interval
  rw [storedBars, (rolled_of_sorted hsorted).finalized, List.filter_filterMap]
  rfl

/-- The buckets with a stored bar. -/
theorem bucketStart_stored : (storedBars (finalizedBars eastern interval rthOnly (ts.map (·.subBar)))).map
      HtfBucket.bucketStart =
    ((closedBuckets interval (ts.map (·.subBar))).filter (keptBucket eastern rthOnly)).filter
      (fun b => (liveBar interval ts b).isSome) := by
  rw [stored_live_eq h, List.map_filterMap]
  conv_rhs => rw [← List.filterMap_eq_filter]
  refine List.filterMap_congr fun b _ => ?_
  cases ha : liveBar interval ts b with
  | none => simp [Option.guard, ha]
  | some a =>
    have hstart := bucketStart_bucketBar (Option.filter_eq_some_iff.1 ha).1
    simp [Option.guard, ha, hstart]

/-- The history can be fed to the replay. -/
theorem exists_fed (symbol : Symbol) : ∃ fed : List (Symbol × Backtest.HistoricalRow),
    (fed.filter (·.1.toUpper = symbol.toUpper)).map (·.2.bar eastern) = minuteHistory eastern ts := by
  refine ⟨((runKeys id (minutes ts)).filterMap fun m => (candle? ((ticksOf ts m).filterMap (·.candle))).map fun c =>
    (symbol, ⟨m, c.first, c.high, c.low, c.last, c.volume⟩)), ?_⟩
  rw [minuteHistory_eq h, List.filter_filterMap, List.map_filterMap]
  refine List.filterMap_congr fun m _ => ?_
  cases candle? ((ticksOf ts m).filterMap (·.candle)) with
  | none => rfl
  | some c =>
    simp only [Option.map_some, Option.filter_some, decide_true, if_true]
    rfl

end Sorted

/-- The coarse bars of a symbol with ticks `ts`: each is the aggregate of its minute rows; they are those of the buckets
with a price that are closed, once and in order; and the replay makes the same of these rows. -/
structure CoarseAgree (eastern : Timestamp → ℕ) (interval : ℕ+) (rthOnly : Bool) (symbol : Symbol)
    (ts : List MarketTickEvent) (live : List HtfBucket)
    (replayed : List (Symbol × Backtest.HistoricalRow) → List HtfBucket) : Prop where
  aggregate : ∀ a ∈ storedBars live,
    AggregateOf ((minuteHistory eastern ts).filter (bucketStart interval ·.timestamp = a.bucketStart)) a
  rising : ((storedBars live).map HtfBucket.bucketStart).Pairwise (· < ·)
  complete : ∀ b, b ∈ (storedBars live).map HtfBucket.bucketStart ↔
    (∃ r ∈ minuteHistory eastern ts, bucketStart interval r.timestamp = b) ∧ keptBucket eastern rthOnly b = true ∧
      ∃ e ∈ ts, b < e.bucket interval
  replay : ∀ fed, (fed.filter (·.1.toUpper = symbol.toUpper)).map (·.2.bar eastern) = minuteHistory eastern ts →
    replayed fed = storedBars live

/-- Every closed bucket with a price has ticks that are shaped like their prices, and a later price. -/
def Alike (eastern : Timestamp → ℕ) (interval : ℕ+) (rthOnly : Bool) (ts : List MarketTickEvent) : Prop :=
  ∀ b, (∃ e ∈ ts, e.close.isSome = true ∧ e.bucket interval = b) → keptBucket eastern rthOnly b = true →
    (∃ e ∈ ts, b < e.bucket interval) →
    Shaped (ts.filter (·.bucket interval = b)) ∧ ∃ e ∈ ts, e.close.isSome = true ∧ b < e.bucket interval

theorem barsOf_fed {symbol : Symbol} {fed : List (Symbol × Backtest.HistoricalRow)}
    (hfed : (fed.filter (·.1.toUpper = symbol.toUpper)).map (·.2.bar eastern) = minuteHistory eastern ts) :
    Backtest.Replay.barsOf symbol.toUpper fed = (minuteHistory eastern ts).map Bar.subBar := by
  rw [← hfed, List.map_map]
  rfl

theorem coarseAgree_iff (h : ts.Pairwise (·.timestamp ≤ ·.timestamp)) (symbol : Symbol) :
    CoarseAgree eastern interval rthOnly symbol ts (finalizedBars eastern interval rthOnly (ts.map (·.subBar)))
        (fun fed => finalizedBars eastern interval rthOnly (Backtest.Replay.barsOf symbol.toUpper fed)) ↔
      Alike eastern interval rthOnly ts := by
  have hpricedIn {b : Timestamp} : pricedIn interval ts b ≠ [] ↔
      ∃ e ∈ ts, e.close.isSome = true ∧ e.bucket interval = b := by
    rw [ne_eq, List.eq_nil_iff_forall_not_mem]
    push Not
    simp only [mem_pricedIn]
  have hcandle {b : Timestamp} (hb : ∃ e ∈ ts, e.close.isSome = true ∧ e.bucket interval = b) :
      ∃ c, bucketCandle interval ts b = some c :=
    Option.ne_none_iff_exists'.1 fun hnone => hpricedIn.2 hb (bucketCandle_eq_none.1 hnone)
  have hstored {b : Timestamp} : b ∈ ((closedBuckets interval (ts.map (·.subBar))).filter (keptBucket eastern rthOnly)) ↔
      ((∃ e ∈ ts, e.bucket interval = b) ∧ ∃ e ∈ ts, b < e.bucket interval) ∧ keptBucket eastern rthOnly b = true := by
    rw [List.mem_filter, mem_closedBuckets_ticks h]
  have haggregate {a : HtfBucket} {c : Candle ℚ} (hc : bucketCandle interval ts a.bucketStart = some c) :
      AggregateOf ((minuteHistory eastern ts).filter (bucketStart interval ·.timestamp = a.bucketStart)) a ↔
        a = coarseBar a.bucketStart c := by
    rw [filter_minuteHistory h]
    exact aggregateOf_minutes (by rw [candle?_minuteCandles h, hc])
  have hsorted : ((ts.map (·.subBar)).map (·.bucket interval)).Pairwise (· ≤ ·) := by
    rw [List.map_map]
    exact buckets_sorted h interval
  constructor
  · rintro ⟨hagg, -, -, hreplay⟩ b hb hkept ⟨e, he, hlt⟩
    obtain ⟨c, hc⟩ := hcandle hb
    obtain ⟨a, ha⟩ := Option.isSome_iff_exists.1 (isSome_liveBar.2 (hpricedIn.2 hb))
    obtain rfl := bucketStart_bucketBar (Option.filter_eq_some_iff.1 ha).1
    have hmem : a ∈ storedBars (finalizedBars eastern interval rthOnly (ts.map (·.subBar))) := by
      obtain ⟨x, hx, -, hxb⟩ := hb
      rw [stored_live_eq h]
      exact List.mem_filterMap.2 ⟨_, hstored.2 ⟨⟨⟨x, hx, hxb⟩, e, he, hlt⟩, hkept⟩, ha⟩
    refine ⟨(liveBar_eq_iff hc).1 (ha.trans (congrArg some ((haggregate hc).1 (hagg a hmem)))), ?_⟩
    obtain ⟨fed, hfed⟩ := @exists_fed eastern ts h symbol
    have hsame := hreplay fed hfed
    rw [barsOf_fed hfed, replayed_eq h] at hsame
    rw [← hsame] at hmem
    obtain ⟨b, hb', hba⟩ := List.mem_filterMap.1 hmem
    obtain ⟨c', -, rfl⟩ := Option.map_eq_some_iff.1 hba
    exact ((mem_closedBuckets_history h).1 (List.mem_filter.1 hb').1).2
  · intro halike
    have hlive {b : Timestamp} (hb : b ∈ (closedBuckets interval (ts.map (·.subBar))).filter (keptBucket eastern rthOnly)) :
        liveBar interval ts b = (bucketCandle interval ts b).map (coarseBar b) := by
      obtain ⟨⟨-, hlater⟩, hkept⟩ := hstored.1 hb
      cases hc : bucketCandle interval ts b with
      | none =>
        have hnone : ¬ (liveBar interval ts b).isSome = true := fun hsome =>
          isSome_liveBar.1 hsome (bucketCandle_eq_none.1 hc)
        rw [Option.map_none]
        exact Option.not_isSome_iff_eq_none.1 hnone
      | some c =>
        have hpriced := hpricedIn.1 fun hnil => by
          rw [bucketCandle_eq_none.2 hnil] at hc
          cases hc
        exact (liveBar_eq_iff hc).2 (halike b hpriced hkept hlater).1
    refine ⟨?_, ?_, ?_, ?_⟩
    · intro a ha
      rw [stored_live_eq h] at ha
      obtain ⟨b, hb, hba⟩ := List.mem_filterMap.1 ha
      obtain rfl := bucketStart_bucketBar (Option.filter_eq_some_iff.1 hba).1
      rw [hlive hb] at hba
      obtain ⟨c, hc, hac⟩ := Option.map_eq_some_iff.1 hba
      exact (haggregate hc).2 hac.symm
    · rw [bucketStart_stored h]
      exact ((pairwise_closedBuckets hsorted).filter _).filter _
    · intro b
      rw [bucketStart_stored h, List.mem_filter, hstored, isSome_liveBar, hpricedIn, exists_history h (· = b)]
      constructor
      · rintro ⟨⟨⟨-, hlater⟩, hkept⟩, hpriced⟩
        exact ⟨hpriced, hkept, hlater⟩
      · rintro ⟨⟨e, he, hprice, hb⟩, hkept, hlater⟩
        exact ⟨⟨⟨⟨e, he, hb⟩, hlater⟩, hkept⟩, e, he, hprice, hb⟩
    · intro fed hfed
      rw [barsOf_fed hfed, replayed_eq h, stored_live_eq h]
      -- the same buckets with a price are closed on both sides
      have hkeep (l : List Timestamp) : l.filterMap (fun b => (bucketCandle interval ts b).map (coarseBar b)) =
          (l.filter fun b => (bucketCandle interval ts b).isSome).filterMap
            (fun b => (bucketCandle interval ts b).map (coarseBar b)) := by
        rw [List.filterMap_filter]
        refine List.filterMap_congr fun b _ => ?_
        cases bucketCandle interval ts b <;> rfl
      rw [List.filterMap_congr fun b hb => hlive hb, hkeep, hkeep (List.filter _ (closedBuckets interval (ts.map _)))]
      congr 1
      refine eq_of_rising (((pairwise_closedBuckets (history_sorted h)).filter _).filter _)
        (((pairwise_closedBuckets hsorted).filter _).filter _) fun b => ?_
      rw [List.mem_filter, List.mem_filter, mem_closedBuckets_history h, List.mem_filter, hstored]
      constructor
      · rintro ⟨⟨⟨⟨e, he, -, hb⟩, x, hx, -, hlt⟩, hkept⟩, hsome⟩
        exact ⟨⟨⟨⟨e, he, hb⟩, x, hx, hlt⟩, hkept⟩, hsome⟩
      · rintro ⟨⟨⟨-, hlater⟩, hkept⟩, hsome⟩
        have hpriced := hpricedIn.1 fun hnil => by
          rw [bucketCandle_eq_none.2 hnil] at hsome
          cases hsome
        exact ⟨⟨⟨hpriced, (halike b hpriced hkept hlater).2⟩, hkept⟩, hsome⟩

/-- **Coarse bars.** Ticks in order of time: the coarse bars of the scanner are the aggregates of the minute rows, and those
of the replay, exactly when the ticks of every closed bucket are shaped like their prices and a later tick has a price. -/
theorem coarse_bars_agree_iff (config : QuantConfig) (ds : List Delivery) (symbol : Symbol)
    (h : ((Trace.run eastern config ds).accepted symbol.toUpper).Pairwise (·.timestamp ≤ ·.timestamp)) :
    CoarseAgree eastern config.htfBarIntervalMinutes config.rthOnlyHtfSma symbol
          ((Trace.run eastern config ds).accepted symbol.toUpper) ((Trace.run eastern config ds).htfBars symbol.toUpper)
          (fun fed => (Backtest.Replay.run eastern config fed).htfBars symbol.toUpper) ∧
        CoarseAgree eastern config.regime60mBarIntervalMinutes false symbol
          ((Trace.run eastern config ds).accepted symbol.toUpper) ((Trace.run eastern config ds).bars60m symbol.toUpper)
          (fun fed => (Backtest.Replay.run eastern config fed).bars60m symbol.toUpper) ↔
      Alike eastern config.htfBarIntervalMinutes config.rthOnlyHtfSma
          ((Trace.run eastern config ds).accepted symbol.toUpper) ∧
        Alike eastern config.regime60mBarIntervalMinutes false
          ((Trace.run eastern config ds).accepted symbol.toUpper) := by
  have hfollows := @coarse_follows_run eastern config symbol.toUpper ds
  have hreplay (fed : List (Symbol × Backtest.HistoricalRow)) :=
    @Backtest.Replay.follows_run eastern config symbol.toUpper fed
  rw [hfollows.htfBars, hfollows.bars60m]
  simp only [(hreplay _).htfBars, (hreplay _).bars60m]
  exact and_congr (coarseAgree_iff h symbol) (coarseAgree_iff h symbol)

/-- Polled quotes: the open, the high and the low of a tick are those of its day. -/
def polledTicks : List Delivery :=
  let tick (t : ℕ) (price : ℚ) : Delivery :=
    ⟨⟨.bar, "AAPL", t * minute, none, none, some 90, some 120, some 80, some price, some 1⟩, none⟩
  [tick 0 100, tick 1 101, tick 60 102]

/-- The coarse bars take the open and the extremes of the day for those of the bucket. -/
theorem polled_bars_are_daily :
    ¬ CoarseAgree (fun _ => 10 * hour) quantConfig.htfBarIntervalMinutes quantConfig.rthOnlyHtfSma "AAPL"
      ((Trace.run (fun _ => 10 * hour) quantConfig polledTicks).accepted "AAPL")
      ((Trace.run (fun _ => 10 * hour) quantConfig polledTicks).htfBars "AAPL")
      (fun fed => (Backtest.Replay.run (fun _ => 10 * hour) quantConfig fed).htfBars "AAPL") := by
  intro h
  have hmem : (⟨0, some 90, some 120, some 80, some 101, 2⟩ : HtfBucket) ∈
      storedBars ((Trace.run (fun _ => 10 * hour) quantConfig polledTicks).htfBars "AAPL") := by decide +kernel
  exact absurd (h.aggregate _ hmem).openPrice (by decide +kernel)

/-- Ticks in order of time. -/
theorem coarse_bars_agree_sample :
    CoarseAgree (fun _ => 10 * hour) quantConfig.htfBarIntervalMinutes quantConfig.rthOnlyHtfSma "AAPL"
          ((Trace.run (fun _ => 10 * hour) quantConfig polledTicks).accepted "AAPL".toUpper)
          ((Trace.run (fun _ => 10 * hour) quantConfig polledTicks).htfBars "AAPL".toUpper)
          (fun fed => (Backtest.Replay.run (fun _ => 10 * hour) quantConfig fed).htfBars "AAPL".toUpper) ∧
        CoarseAgree (fun _ => 10 * hour) quantConfig.regime60mBarIntervalMinutes false "AAPL"
          ((Trace.run (fun _ => 10 * hour) quantConfig polledTicks).accepted "AAPL".toUpper)
          ((Trace.run (fun _ => 10 * hour) quantConfig polledTicks).bars60m "AAPL".toUpper)
          (fun fed => (Backtest.Replay.run (fun _ => 10 * hour) quantConfig fed).bars60m "AAPL".toUpper) ↔
      Alike (fun _ => 10 * hour) quantConfig.htfBarIntervalMinutes quantConfig.rthOnlyHtfSma
          ((Trace.run (fun _ => 10 * hour) quantConfig polledTicks).accepted "AAPL".toUpper) ∧
        Alike (fun _ => 10 * hour) quantConfig.regime60mBarIntervalMinutes false
          ((Trace.run (fun _ => 10 * hour) quantConfig polledTicks).accepted "AAPL".toUpper) :=
  coarse_bars_agree_iff quantConfig polledTicks "AAPL" (by decide +kernel)

end Agreement

end TalonX.Quant
