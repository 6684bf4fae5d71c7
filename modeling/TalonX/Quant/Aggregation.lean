import Mathlib.Data.PNat.Basic
import TalonX.Quant.Schemas
import TalonX.Transact.Candle
import TalonX.Transact.Runs

/-!
# Coarse bars

- `HtfBarAggregator`: bars of a smaller interval rolled up into bars of a larger one, of the live scanner and of the
  replay alike; a bucket is finalised when a bar of another bucket arrives;
- `nextBucket`, `finalizedBy`: one `update` for one symbol (`update_eq`);
- `bucketBar`: the bar of a bucket out of all its bars (`bucketBar_fields`);
- `rolled_of_sorted`: bars in order of time finalise every bucket but the last, once and in order, each with its bars.
-/

set_option autoImplicit false

namespace TalonX.Quant

/-- The arguments of one `update`. -/
structure SubBar where
  timestamp : Timestamp
  openPrice : Option ℚ
  high : Option ℚ
  low : Option ℚ
  close : Option ℚ
  volume : Option ℚ
  deriving DecidableEq, Repr

/-- The bucket that is forming, and what `update` returns of it. -/
structure HtfBucket where
  bucketStart : Timestamp
  openPrice : Option ℚ
  high : Option ℚ
  low : Option ℚ
  close : Option ℚ
  volume : ℚ
  deriving DecidableEq, Repr

structure HtfBarAggregator where
  intervalMinutes : ℕ+
  rthOnly : Bool
  accumulators : Symbol → Option HtfBucket

/-- The bucket that a bar belongs to. -/
def SubBar.bucket (interval : ℕ+) (x : SubBar) : Timestamp := bucketStart interval x.timestamp

/-- `rth_only` keeps the buckets that begin in the regular session. -/
def keptBucket (eastern : Timestamp → ℕ) (rthOnly : Bool) (b : Timestamp) : Bool :=
  !rthOnly || getSession eastern b = .regular

/-- `f` of two prices, where there are two. -/
def mergePrice (f : ℚ → ℚ → ℚ) (acc new : Option ℚ) : Option ℚ :=
  match new with
  | none => acc
  | some x => some (acc.elim x fun a => f a x)

namespace HtfBucket

/-- The first bar of a bucket. -/
def start (bucketStart : Timestamp) (x : SubBar) : HtfBucket :=
  ⟨bucketStart, x.openPrice, x.high, x.low, x.close, x.volume.getD 0⟩

/-- One more bar of the bucket. -/
def add (b : HtfBucket) (x : SubBar) : HtfBucket :=
  { b with
    high := mergePrice max b.high x.high
    low := mergePrice min b.low x.low
    close := x.close.or b.close
    volume := b.volume + x.volume.getD 0 }

end HtfBucket

namespace HtfBarAggregator

def empty (intervalMinutes : ℕ+) (rthOnly : Bool) : HtfBarAggregator := ⟨intervalMinutes, rthOnly, fun _ => none⟩

def reset (a : HtfBarAggregator) (symbol : Symbol) : HtfBarAggregator :=
  { a with accumulators := Function.update a.accumulators symbol.toUpper none }

/-- `update`: the finalised bucket, if any, and the aggregator after the bar. -/
def update (eastern : Timestamp → ℕ) (a : HtfBarAggregator) (symbol : Symbol) (x : SubBar) :
    Option HtfBucket × HtfBarAggregator :=
  let key := symbol.toUpper
  let bucket := x.bucket a.intervalMinutes
  let forming (b : HtfBucket) : HtfBarAggregator :=
    { a with accumulators := Function.update a.accumulators key (some b) }
  match a.accumulators key with
  | none => (none, forming (.start bucket x))
  | some acc =>
    if acc.bucketStart = bucket then (none, forming (acc.add x))
    else (if keptBucket eastern a.rthOnly acc.bucketStart then some acc else none, forming (.start bucket x))

end HtfBarAggregator

/-! ## The bars of one symbol -/

section Rollup

variable (eastern : Timestamp → ℕ) (interval : ℕ+) (rthOnly : Bool)

def nextBucket (acc : Option HtfBucket) (x : SubBar) : HtfBucket :=
  match acc with
  | none => .start (x.bucket interval) x
  | some a => if a.bucketStart = x.bucket interval then a.add x else .start (x.bucket interval) x

def finalizedBy (acc : Option HtfBucket) (x : SubBar) : Option HtfBucket :=
  acc.filter fun a => a.bucketStart ≠ x.bucket interval && keptBucket eastern rthOnly a.bucketStart

def finalizedFrom (acc : Option HtfBucket) : List SubBar → List HtfBucket
  | [] => []
  | x :: xs => (finalizedBy eastern interval rthOnly acc x).toList ++ finalizedFrom (some (nextBucket interval acc x)) xs

def formingBucket (xs : List SubBar) : Option HtfBucket := xs.foldl (fun acc x => some (nextBucket interval acc x)) none

/-- The buckets that bars finalise. -/
def finalizedBars (xs : List SubBar) : List HtfBucket := finalizedFrom eastern interval rthOnly none xs

/-- The bar of a bucket, out of all its bars. -/
def bucketBar (b : Timestamp) : List SubBar → Option HtfBucket
  | [] => none
  | y :: ys => some (ys.foldl HtfBucket.add (.start b y))

variable {eastern interval rthOnly}

theorem HtfBarAggregator.update_eq (a : HtfBarAggregator) (symbol : Symbol) (x : SubBar) :
    a.update eastern symbol x =
      (finalizedBy eastern a.intervalMinutes a.rthOnly (a.accumulators symbol.toUpper) x,
        { a with
          accumulators := Function.update a.accumulators symbol.toUpper
            (some (nextBucket a.intervalMinutes (a.accumulators symbol.toUpper) x)) }) := by
  unfold HtfBarAggregator.update finalizedBy nextBucket
  dsimp only
  cases a.accumulators symbol.toUpper with
  | none => rfl
  | some acc =>
    by_cases hb : acc.bucketStart = x.bucket a.intervalMinutes
    · simp [hb, Option.filter_some]
    · dsimp only
      rw [if_neg hb, if_neg hb]
      cases hk : keptBucket eastern a.rthOnly acc.bucketStart with
      | true => simp [Option.filter_some, hk, hb]
      | false => simp [Option.filter_some, hk]

theorem finalizedFrom_append (acc : Option HtfBucket) (xs ys : List SubBar) :
    finalizedFrom eastern interval rthOnly acc (xs ++ ys) = finalizedFrom eastern interval rthOnly acc xs ++
      finalizedFrom eastern interval rthOnly (xs.foldl (fun acc x => some (nextBucket interval acc x)) acc) ys := by
  induction xs generalizing acc with
  | nil => rfl
  | cons x xs ih => rw [List.cons_append, finalizedFrom, ih, finalizedFrom, List.append_assoc, List.foldl_cons]

theorem finalizedBars_concat (xs : List SubBar) (x : SubBar) :
    finalizedBars eastern interval rthOnly (xs ++ [x]) = finalizedBars eastern interval rthOnly xs ++
      (finalizedBy eastern interval rthOnly (formingBucket interval xs) x).toList := by
  rw [finalizedBars, finalizedFrom_append, finalizedFrom, finalizedFrom, List.append_nil]
  rfl

theorem formingBucket_concat (xs : List SubBar) (x : SubBar) :
    formingBucket interval (xs ++ [x]) = some (nextBucket interval (formingBucket interval xs) x) := List.foldl_concat ..

theorem bucketBar_concat (b : Timestamp) (ys : List SubBar) (y : SubBar) :
    bucketBar b (ys ++ [y]) = some ((bucketBar b ys).elim (.start b y) (·.add y)) := by
  cases ys with
  | nil => rfl
  | cons z ys => rw [List.cons_append, bucketBar, List.foldl_concat, bucketBar, Option.elim_some]

theorem bucketStart_foldl_add (a : HtfBucket) (ys : List SubBar) :
    (ys.foldl HtfBucket.add a).bucketStart = a.bucketStart := by
  induction ys generalizing a with
  | nil => rfl
  | cons y ys ih => rw [List.foldl_cons, ih, HtfBucket.add]

theorem bucketStart_bucketBar {b : Timestamp} {ys : List SubBar} {a : HtfBucket} (h : bucketBar b ys = some a) :
    a.bucketStart = b := by
  cases ys with
  | nil => cases h
  | cons y ys =>
    obtain rfl := Option.some.inj h
    exact bucketStart_foldl_add ..

/-- The bars of a bucket. -/
def inBucket (interval : ℕ+) (xs : List SubBar) (b : Timestamp) : List SubBar := xs.filter (·.bucket interval = b)

theorem inBucket_concat_of_ne {xs : List SubBar} {x : SubBar} {b : Timestamp} (h : x.bucket interval ≠ b) :
    inBucket interval (xs ++ [x]) b = inBucket interval xs b := by
  simp [inBucket, h]

theorem inBucket_concat_self (xs : List SubBar) (x : SubBar) :
    inBucket interval (xs ++ [x]) (x.bucket interval) = inBucket interval xs (x.bucket interval) ++ [x] := by
  simp [inBucket]

/-- The buckets that were left, in order. -/
def closedBuckets (interval : ℕ+) (xs : List SubBar) : List Timestamp :=
  (Transact.runKeys (·.bucket interval) xs).dropLast

theorem mergePrice_concat {f : ℚ → ℚ → ℚ} {fold : List ℚ → Option ℚ} (hone : ∀ x, fold [x] = some x)
    (hempty : ∀ ps, fold ps = none → ps = []) (hmore : ∀ ps m x, fold ps = some m → fold (ps ++ [x]) = some (f m x))
    (ps : List ℚ) (new : Option ℚ) : mergePrice f (fold ps) new = fold (ps ++ new.toList) := by
  cases new with
  | none => rw [Option.toList_none, List.append_nil, mergePrice]
  | some x =>
    rw [Option.toList_some, mergePrice]
    cases h : fold ps with
    | none =>
      obtain rfl := hempty ps h
      rw [List.nil_append, hone]
      rfl
    | some m => rw [hmore ps m x h, Option.elim_some]

/-- The fields of a bucket: the open of its first bar, the extremes, the last close and all the volume. -/
theorem bucketBar_fields {b : Timestamp} {ys : List SubBar} {a : HtfBucket} (h : bucketBar b ys = some a) :
    a.bucketStart = b ∧ a.openPrice = ys.head?.bind (·.openPrice) ∧ a.high = (ys.filterMap (·.high)).max? ∧
      a.low = (ys.filterMap (·.low)).min? ∧ a.close = (ys.filterMap (·.close)).getLast? ∧
      a.volume = (ys.map (·.volume.getD 0)).sum := by
  refine ⟨bucketStart_bucketBar h, ?_⟩
  induction ys using List.reverseRecOn generalizing a with
  | nil => cases h
  | append_singleton ys y ih =>
    rw [bucketBar_concat, Option.some.injEq] at h
    cases hys : bucketBar b ys with
    | none =>
      have hnil : ys = [] := by
        cases ys with
        | nil => rfl
        | cons z zs => cases hys
      subst hnil
      rw [hys] at h
      subst h
      refine ⟨rfl, ?_, ?_, ?_, ?_⟩
      · cases hy : y.high <;> simp [HtfBucket.start, hy]
      · cases hy : y.low <;> simp [HtfBucket.start, hy]
      · cases hy : y.close <;> simp [HtfBucket.start, hy]
      · simp [HtfBucket.start]
    | some a₀ =>
      obtain ⟨hopen, hhigh, hlow, hclose, hvolume⟩ := ih hys
      rw [hys, Option.elim_some] at h
      subst h
      have hne : ys ≠ [] := by
        rintro rfl
        cases hys
      have hsingle {f : SubBar → Option ℚ} : [y].filterMap f = (f y).toList := by cases hf : f y <;> simp [hf]
      refine ⟨?_, ?_, ?_, ?_, ?_⟩
      · rw [List.head?_append_of_ne_nil _ hne]
        exact hopen
      · rw [List.filterMap_append, hsingle, HtfBucket.add, hhigh]
        exact mergePrice_concat (fun x => List.max?_singleton) (fun ps => List.max?_eq_none_iff.1)
          (fun ps m x hm => Transact.max?_concat hm x) _ _
      · rw [List.filterMap_append, hsingle, HtfBucket.add, hlow]
        exact mergePrice_concat (fun x => List.min?_singleton) (fun ps => List.min?_eq_none_iff.1)
          (fun ps m x hm => Transact.min?_concat hm x) _ _
      · rw [List.filterMap_append, hsingle, HtfBucket.add, hclose]
        cases y.close <;> simp
      · rw [List.map_append, List.sum_append, List.map_singleton, List.sum_singleton, ← hvolume]
        rfl

/-- What is known of the aggregator after bars in order of time. -/
structure Rolled (eastern : Timestamp → ℕ) (interval : ℕ+) (rthOnly : Bool) (xs : List SubBar) : Prop where
  forming : ∀ b, xs.getLast?.map (·.bucket interval) = some b →
    formingBucket interval xs = bucketBar b (inBucket interval xs b)
  finalized : finalizedBars eastern interval rthOnly xs =
    ((closedBuckets interval xs).filter (keptBucket eastern rthOnly)).filterMap fun b => bucketBar b (inBucket interval xs b)

theorem rolled_of_sorted {xs : List SubBar} (h : (xs.map (·.bucket interval)).Pairwise (· ≤ ·)) :
    Rolled eastern interval rthOnly xs := by
  induction xs using List.reverseRecOn with
  | nil => exact ⟨nofun, rfl⟩
  | append_singleton xs x ih =>
    have hsorted := h
    rw [List.map_append, List.pairwise_append] at h
    obtain ⟨hxs, -, hle⟩ := h
    obtain ⟨hforming, hfinalized⟩ := ih hxs
    have hrise := Transact.pairwise_runKeys hxs
    have hkeys : (Transact.runKeys (·.bucket interval) xs).getLast? = xs.getLast?.map (·.bucket interval) :=
      Transact.getLast?_runKeys xs
    cases hlast : xs.getLast?.map (·.bucket interval) with
    | none =>
      obtain rfl : xs = [] := List.getLast?_eq_none_iff.1 (Option.map_eq_none_iff.1 hlast)
      constructor
      · intro b hb
        rw [List.nil_append, List.getLast?_singleton, Option.map_some, Option.some.injEq] at hb
        subst hb
        rw [formingBucket_concat, inBucket_concat_self, bucketBar_concat]
        rfl
      · rw [finalizedBars_concat, closedBuckets, Transact.runKeys_concat, if_neg (by simp)]
        simp [formingBucket, finalizedBars, finalizedFrom, finalizedBy, Transact.runKeys, Transact.runHeads]
    | some b₀ =>
      rw [hlast] at hkeys
      obtain ⟨a, ha⟩ : ∃ a, bucketBar b₀ (inBucket interval xs b₀) = some a := by
        obtain ⟨y, hy, hyb⟩ := Option.map_eq_some_iff.1 hlast
        have hmem : y ∈ inBucket interval xs b₀ :=
          List.mem_filter.2 ⟨List.mem_of_getLast? hy, decide_eq_true hyb⟩
        cases hys : inBucket interval xs b₀ with
        | nil => rw [hys] at hmem; cases hmem
        | cons z zs => exact ⟨_, rfl⟩
      have hacc := (hforming b₀ hlast).trans ha
      have hstart := bucketStart_bucketBar ha
      by_cases hb : b₀ = x.bucket interval
      · subst hb
        constructor
        · intro b hb
          rw [List.getLast?_concat, Option.map_some, Option.some.injEq] at hb
          subst hb
          rw [formingBucket_concat, hacc, nextBucket, if_pos hstart, inBucket_concat_self, bucketBar_concat, ha]
          rfl
        · have hclosed : closedBuckets interval (xs ++ [x]) = closedBuckets interval xs := by
            rw [closedBuckets, Transact.runKeys_concat, if_pos hlast, closedBuckets]
          rw [finalizedBars_concat, hacc, finalizedBy, hfinalized, hclosed]
          simp only [Option.filter_some, hstart, ne_eq, not_true_eq_false, decide_false, Bool.false_and,
            Bool.false_eq_true, if_false, Option.toList_none, List.append_nil]
          refine List.filterMap_congr fun b hbmem => ?_
          -- a bucket that was left lies before the last one
          have hlt : b < x.bucket interval := by
            rw [← List.dropLast_append_getLast? _ hkeys, List.pairwise_append] at hrise
            exact hrise.2.2 b (List.mem_filter.1 hbmem).1 _ (List.mem_singleton.2 rfl)
          rw [inBucket_concat_of_ne hlt.ne']
      · have hlt : b₀ < x.bucket interval := by
          refine lt_of_le_of_ne (hle b₀ ?_ _ (List.mem_singleton.2 rfl)) hb
          rw [← List.getLast?_map] at hlast
          exact List.mem_of_getLast? hlast
        have hbefore {b : Timestamp} (hbmem : b ∈ Transact.runKeys (·.bucket interval) xs) : b < x.bucket interval := by
          refine lt_of_le_of_lt ?_ hlt
          rw [← List.getLast?_map] at hlast
          exact Transact.le_getLast_of_sorted hxs hlast (Transact.mem_runKeys.1 hbmem)
        constructor
        · intro b hb'
          rw [List.getLast?_concat, Option.map_some, Option.some.injEq] at hb'
          subst hb'
          have hnew : inBucket interval xs (x.bucket interval) = [] := by
            refine List.filter_eq_nil_iff.2 fun y hy hyb => ?_
            exact (hbefore (Transact.mem_runKeys.2 (List.mem_map.2 ⟨y, hy, of_decide_eq_true hyb⟩))).ne rfl
          rw [formingBucket_concat, hacc, nextBucket, if_neg (by rw [hstart]; exact hb), inBucket_concat_self, hnew]
          rfl
        · have hclosed : closedBuckets interval (xs ++ [x]) = closedBuckets interval xs ++ [b₀] := by
            rw [closedBuckets, Transact.runKeys_concat, if_neg (by rw [hlast, Option.some.injEq]; exact hb),
              List.dropLast_concat, closedBuckets, List.dropLast_append_getLast? _ hkeys]
          rw [finalizedBars_concat, hacc, finalizedBy, hfinalized, hclosed, List.filter_append, List.filterMap_append]
          congr 1
          · refine List.filterMap_congr fun b hbmem => ?_
            have hbmem := List.dropLast_subset _ (List.mem_filter.1 hbmem).1
            rw [inBucket_concat_of_ne (hbefore hbmem).ne']
          · rw [Option.filter_some, hstart, List.filter_singleton]
            cases keptBucket eastern rthOnly b₀ with
            | false => simp
            | true => simp [hb, inBucket_concat_of_ne (Ne.symm hb), ha]

/-- Bars in order of time: a bucket was left when a later one has begun. -/
theorem mem_closedBuckets {xs : List SubBar} (h : (xs.map (·.bucket interval)).Pairwise (· ≤ ·)) {b : Timestamp} :
    b ∈ closedBuckets interval xs ↔
      (∃ x ∈ xs, x.bucket interval = b) ∧ ∃ x ∈ xs, b < x.bucket interval := by
  have hrise := Transact.pairwise_runKeys h
  have hmem {k : Timestamp} : k ∈ Transact.runKeys (·.bucket interval) xs ↔ ∃ x ∈ xs, x.bucket interval = k :=
    Transact.mem_runKeys.trans List.mem_map
  rw [← hmem]
  cases hlast : (Transact.runKeys (·.bucket interval) xs).getLast? with
  | none =>
    have hnil := List.getLast?_eq_none_iff.1 hlast
    rw [closedBuckets, hnil]
    simp
  | some last =>
    have hsplit := List.dropLast_append_getLast? _ hlast
    rw [← hsplit, List.pairwise_append] at hrise
    have hle {k : Timestamp} (hk : k ∈ Transact.runKeys (·.bucket interval) xs) : k ≤ last := by
      rw [← hsplit, List.mem_append] at hk
      rcases hk with hk | hk
      · exact (hrise.2.2 k hk last (List.mem_singleton.2 rfl)).le
      · exact (List.mem_singleton.1 hk).le
    constructor
    · intro hb
      obtain ⟨x, hx, rfl⟩ := hmem.1 (List.mem_of_getLast? hlast)
      exact ⟨List.dropLast_subset _ hb, x, hx, hrise.2.2 b hb _ (List.mem_singleton.2 rfl)⟩
    · rintro ⟨hb, x, hx, hlt⟩
      rw [← hsplit, List.mem_append] at hb
      refine hb.resolve_right fun hb => ?_
      rw [List.mem_singleton.1 hb] at hlt
      exact (hle (hmem.2 ⟨x, hx, rfl⟩)).not_gt hlt

theorem pairwise_closedBuckets {xs : List SubBar} (h : (xs.map (·.bucket interval)).Pairwise (· ≤ ·)) :
    (closedBuckets interval xs).Pairwise (· < ·) :=
  (Transact.pairwise_runKeys h).sublist (List.dropLast_sublist _)

end Rollup

end TalonX.Quant
