import Mathlib.Data.List.Pairwise
import TalonX.Ingest.EdgarNormalize

/-!
# Merging the shards of a feed

`mergeRecent` appends the arrays of a shard to those of the document, column by column, and the merged document is then
read by position. Whether a filing keeps its cells depends on nothing but which documents have which columns: the merged
document yields the filings of the documents, one document after the other, for all contents of the arrays exactly when no
document lacks a column that a later one has (`merge_aligned_iff`).

- `rows_append`: two documents read after each other;
- `rows_mergeAll`: all of them;
- `merged_loadSubmissionsWindow`: what the loader merges.
-/

set_option autoImplicit false

namespace TalonX.Ingest

/-! ## Merging -/

/-- `_merge_recent`. -/
def mergeRecent (base shard : Recent) : Recent where
  form := base.form ++ shard.form
  accessionNumber := base.accessionNumber ++ shard.accessionNumber
  column c := base.column c ++ shard.column c

/-- A document: arrays of one length, of which all but the forms and the accession numbers may be missing. -/
structure Feed extends Recent where
  accession_length : accessionNumber.length = form.length
  column_length : ∀ c, column c = [] ∨ (column c).length = form.length

/-- The document with the shards merged into it. -/
def mergeAll (base : Feed) (shards : List Feed) : Recent :=
  shards.foldl (fun r shard => mergeRecent r shard.toRecent) base.toRecent

/-- One entry of `filings.files`: its name and its `filingTo`. -/
structure ShardMeta where
  name : String
  filingTo : String

/-- `_shard_overlaps`. -/
def shardOverlaps (rd : IsoReader) (m : ShardMeta) (sinceDate : Option Date) : Bool :=
  match sinceDate with
  | none => true
  | some since =>
    if m.filingTo = "" then true
    else
      match rd.date (String.ofList (m.filingTo.toList.take 10)) with
      | none => true
      | some d => since ≤ d

/-- The shards that the loader merges: those that overlap and can be fetched, up to `maxShards`. -/
def shardsOf (rd : IsoReader) (fetch : ShardMeta → Option Feed) (sinceDate : Option Date) :
    ℕ → List ShardMeta → List Feed
  | _, [] => []
  | 0, _ :: _ => []
  | maxShards + 1, m :: files =>
    if m.name = "" ∨ shardOverlaps rd m sinceDate = false then shardsOf rd fetch sinceDate (maxShards + 1) files
    else
      match fetch m with
      | none => shardsOf rd fetch sinceDate (maxShards + 1) files
      | some shard => shard :: shardsOf rd fetch sinceDate maxShards files

/-- `load_submissions_window`. -/
def loadSubmissionsWindow (rd : IsoReader) (fetch : ShardMeta → Option Feed) (sinceDate : Option Date)
    (base : Recent) : ℕ → List ShardMeta → Recent
  | _, [] => base
  | 0, _ :: _ => base
  | maxShards + 1, m :: files =>
    if m.name = "" ∨ shardOverlaps rd m sinceDate = false then
      loadSubmissionsWindow rd fetch sinceDate base (maxShards + 1) files
    else
      match fetch m with
      | none => loadSubmissionsWindow rd fetch sinceDate base (maxShards + 1) files
      | some shard => loadSubmissionsWindow rd fetch sinceDate (mergeRecent base shard.toRecent) maxShards files

theorem merged_loadSubmissionsWindow (rd : IsoReader) (fetch : ShardMeta → Option Feed) (sinceDate : Option Date)
    (base : Recent) (maxShards : ℕ) (files : List ShardMeta) :
    loadSubmissionsWindow rd fetch sinceDate base maxShards files =
      (shardsOf rd fetch sinceDate maxShards files).foldl (fun r shard => mergeRecent r shard.toRecent) base := by
  induction files generalizing base maxShards with
  | nil => cases maxShards <;> rfl
  | cons m files ih =>
    cases maxShards with
    | zero => rfl
    | succ n =>
      unfold loadSubmissionsWindow shardsOf
      split
      · exact ih base (n + 1)
      · cases fetch m with
        | none => exact ih base (n + 1)
        | some shard => exact ih _ n

/-! ## Reading after each other -/

variable {d : Feed} {m : Recent}

/-- A document whose columns end where the next document's begin. -/
theorem rows_append (h : ∀ c, (d.column c).length = d.form.length ∨ m.column c = []) :
    (mergeRecent d.toRecent m).rows = d.toRecent.rows ++ m.rows := by
  have hhead : ∀ i < d.form.length, ∀ form, (mergeRecent d.toRecent m).row i form = d.toRecent.row i form := by
    intro i hi form
    have hacc : (d.accessionNumber ++ m.accessionNumber)[i]? = d.accessionNumber[i]? :=
      List.getElem?_append_left (by rw [d.accession_length]; exact hi)
    have hcol : ∀ c, (d.column c ++ m.column c)[i]? = (d.column c)[i]? := by
      intro c
      rcases h c with hc | hc
      · exact List.getElem?_append_left (by rw [hc]; exact hi)
      · rw [hc, List.append_nil]
    simp only [Recent.row, mergeRecent, hacc, hcol]
  have htail : ∀ i form, (mergeRecent d.toRecent m).row (i + d.form.length) form = m.row i form := by
    intro i form
    have hacc : (d.accessionNumber ++ m.accessionNumber)[i + d.form.length]? = m.accessionNumber[i]? := by
      rw [List.getElem?_append_right (by rw [d.accession_length]; omega), d.accession_length, Nat.add_sub_cancel]
    have hcol : ∀ c, (d.column c ++ m.column c)[i + d.form.length]? = (m.column c)[i]? := by
      intro c
      rcases h c with hc | hc
      · rw [List.getElem?_append_right (by omega), hc, Nat.add_sub_cancel]
      · rw [hc, List.append_nil, List.getElem?_nil, List.getElem?_eq_none_iff]
        rcases d.column_length c with hd | hd
        · simp [hd]
        · omega
    simp only [Recent.row, mergeRecent, hacc, hcol]
  have hforms : (mergeRecent d.toRecent m).form = d.form ++ m.form := rfl
  rw [Recent.rows, hforms, List.mapIdx_append, Recent.rows, Recent.rows]
  congr 1
  · refine List.ext_getElem (by simp) fun i hi _ => ?_
    rw [List.getElem_mapIdx, List.getElem_mapIdx]
    exact hhead i (by simpa using hi) _
  · exact congrArg (List.mapIdx · m.form) (funext fun i => funext fun form => htail i form)

/-- The documents after each other. -/
def concatAll : List Feed → Recent
  | [] => ⟨[], [], fun _ => []⟩
  | d :: ds => mergeRecent d.toRecent (concatAll ds)

theorem mergeRecent_assoc (a b c : Recent) : mergeRecent (mergeRecent a b) c = mergeRecent a (mergeRecent b c) := by
  simp only [mergeRecent, List.append_assoc]

theorem foldl_mergeRecent (r : Recent) (shards : List Feed) :
    shards.foldl (fun r shard => mergeRecent r shard.toRecent) r = mergeRecent r (concatAll shards) := by
  induction shards generalizing r with
  | nil => simp [concatAll, mergeRecent]
  | cons d ds ih => rw [List.foldl_cons, ih, mergeRecent_assoc, concatAll]

theorem mergeAll_eq (base : Feed) (shards : List Feed) : mergeAll base shards = concatAll (base :: shards) :=
  foldl_mergeRecent _ _

theorem column_concatAll (docs : List Feed) (c : Column) :
    (concatAll docs).column c = docs.flatMap fun d => d.column c := by
  induction docs with
  | nil => rfl
  | cons d ds ih => rw [List.flatMap_cons, ← ih]; rfl

/-- No document lacks a column that a later one has; a document without filings lacks nothing. -/
def Stacked (docs : List Feed) : Prop :=
  ∀ c, docs.Pairwise fun a b => b.column c ≠ [] → (a.column c).length = a.form.length

/-- Stacked documents keep their rows. -/
theorem rows_concatAll {docs : List Feed} (h : Stacked docs) :
    (concatAll docs).rows = docs.flatMap fun d => d.toRecent.rows := by
  induction docs with
  | nil => rfl
  | cons d ds ih =>
    rw [concatAll, List.flatMap_cons, ← ih fun c => (List.pairwise_cons.1 (h c)).2]
    refine rows_append fun c => ?_
    by_cases hlen : (d.column c).length = d.form.length
    · exact .inl hlen
    · right
      rw [column_concatAll, List.flatMap_eq_nil_iff]
      intro b hb
      by_contra hne
      exact hlen ((List.pairwise_cons.1 (h c)).1 b hb hne)

/-! ## Documents of one shape -/

/-- How many filings a document has, and how long its columns are. -/
def Feed.shape (d : Feed) : ℕ × (Column → ℕ) := (d.form.length, fun c => (d.column c).length)

/-- A text that shows in the filing. -/
def cellText : Column → String
  | .acceptanceDateTime => "2024-01-02T00:00:00Z"
  | .filingDate => "2024-01-02"
  | .reportDate => "2024-01-02"
  | .primaryDocument => "a.htm"
  | .items => "2.02"

/-- The filing has something of the column. -/
def shows : Column → NormalizedFiling → Bool
  | .acceptanceDateTime, f => f.acceptanceDatetime.isSome
  | .filingDate, f => f.filingDate.isSome
  | .reportDate, f => f.reportDate.isSome
  | .primaryDocument, f => f.primaryDocument.isSome
  | .items, f => f.items ≠ []

/-- The document of the same shape whose cells all show. -/
def Feed.plain (d : Feed) : Feed where
  form := List.replicate d.form.length "8-K"
  accessionNumber := List.replicate d.form.length (some "0000320193-24-000001")
  column c := List.replicate (d.column c).length (some (cellText c))
  accession_length := by simp
  column_length c := by
    rcases d.column_length c with h | h
    · simp [h]
    · simp [h]

theorem shape_plain (d : Feed) : d.plain.shape = d.shape := by simp [Feed.shape, Feed.plain]

/-- The readers understand a plain date and a plain time. -/
structure IsoReader.Plain (rd : IsoReader) : Prop where
  date : (rd.date "2024-01-02").isSome
  datetime : (rd.datetime "2024-01-02T00:00:00+00:00").isSome

variable {rd : IsoReader}

theorem parseDate_plain (h : rd.Plain) : (parseDate rd (some "2024-01-02")).isSome = true := by
  have hstrip : strip "2024-01-02" = "2024-01-02" := by decide +kernel
  simp only [parseDate]
  rw [if_neg (by decide), hstrip]
  exact h.date

theorem parseAcceptance_plain (h : rd.Plain) :
    (parseAcceptanceDatetimeEx rd (some "2024-01-02T00:00:00Z")).1.isSome = true := by
  have hempty : stripChars "2024-01-02T00:00:00Z".toList ≠ [] := by decide +kernel
  have hiso : String.ofList ((acceptanceText (stripChars "2024-01-02T00:00:00Z".toList)).flatMap fun c =>
      if c = 'Z' then "+00:00".toList else [c]) = "2024-01-02T00:00:00+00:00" := by decide +kernel
  simp only [parseAcceptanceDatetimeEx]
  rw [if_neg hempty, hiso]
  obtain ⟨dt, hdt⟩ := Option.isSome_iff_exists.1 h.datetime
  rw [hdt]
  dsimp only
  split <;> rfl

/-- Whether a filing shows a column is whether its cell is filled. -/
theorem shows_normalizeRow (hrd : rd.Plain) (h : Header) (symbol : String) {r : RawRow} (c : Column)
    (hform : r.form = "8-K") (hacc : r.accession = some "0000320193-24-000001") (b : Bool)
    (hcell : r.cell c = if b then some (cellText c) else missingCell c) :
    (normalizeRow rd h symbol [] r).map (shows c) = some b := by
  have hnorm : normalizeAccession (some "0000320193-24-000001") = some "0000320193-24-000001" := by decide +kernel
  rw [normalizeRow, hform, hacc, hnorm, if_pos (by rfl), Option.map_some, Option.map_some]
  refine congrArg some ?_
  cases c with
  | acceptanceDateTime =>
    cases b with
    | true => simpa [shows, hcell, cellText] using parseAcceptance_plain hrd
    | false => simp [shows, hcell, missingCell, parseAcceptanceDatetimeEx]
  | filingDate =>
    cases b with
    | true => simpa [shows, hcell, cellText] using parseDate_plain hrd
    | false => simp [shows, hcell, missingCell, parseDate]
  | reportDate =>
    cases b with
    | true => simpa [shows, hcell, cellText] using parseDate_plain hrd
    | false => simp [shows, hcell, missingCell, parseDate]
  | primaryDocument => cases b <;> simp [shows, hcell, cellText, missingCell]
  | items =>
    have hitem : normalizeItems (some "2.02") = ["2.02"] := by decide +kernel
    have hnone : normalizeItems (some "") = [] := by decide +kernel
    cases b <;> simp [shows, hcell, cellText, missingCell, hitem, hnone]

/-- `n` plain filings, the first `k c` of them with a cell of the column `c`. -/
structure Recent.PlainTo (r : Recent) (n : ℕ) (k : Column → ℕ) : Prop where
  form : r.form = List.replicate n "8-K"
  accession : r.accessionNumber = List.replicate n (some "0000320193-24-000001")
  column : ∀ c, r.column c = List.replicate (k c) (some (cellText c))

theorem plainTo_plain (d : Feed) : d.plain.toRecent.PlainTo d.form.length fun c => (d.column c).length :=
  ⟨rfl, rfl, fun _ => rfl⟩

theorem plainTo_concatAll (docs : List Feed) :
    ∃ n k, (concatAll (docs.map Feed.plain)).PlainTo n k := by
  induction docs with
  | nil => exact ⟨0, fun _ => 0, rfl, rfl, fun _ => rfl⟩
  | cons d ds ih =>
    obtain ⟨n, k, hf, ha, hc⟩ := ih
    refine ⟨d.form.length + n, fun c => (d.column c).length + k c, ?_, ?_, fun c => ?_⟩
    · rw [List.replicate_add, ← hf]; rfl
    · rw [List.replicate_add, ← ha]; rfl
    · rw [List.replicate_add, ← hc c]; rfl

/-- The filings of such a document show a column from the start to its end. -/
theorem shows_of_plainTo (hrd : rd.Plain) (h : Header) (symbol : Option String) {r : Recent} {n : ℕ} {k : Column → ℕ}
    (hr : r.PlainTo n k) (c : Column) :
    (iterNormalizedFilings rd h symbol [] r).map (shows c) = (List.range n).map fun i => decide (i < k c) := by
  have hrows : r.rows.map (fun row => (normalizeRow rd h (filingSymbol h symbol) [] row).map (shows c)) =
      (List.range n).map fun i => some (decide (i < k c)) := by
    refine List.ext_getElem (by simp [Recent.rows, hr.form]) fun i hi hi' => ?_
    have hin : i < n := by simpa using hi'
    have hform : i < r.form.length := by simpa [hr.form] using hin
    rw [List.getElem_map, List.getElem_map, List.getElem_range]
    simp only [Recent.rows, List.getElem_mapIdx]
    refine shows_normalizeRow hrd h _ c ?_ ?_ _ ?_
    · simp [Recent.row, hr.form]
    · simp [Recent.row, hr.accession, hin]
    · simp only [Recent.row, hr.column, List.getElem?_replicate]
      by_cases hk : i < k c <;> simp [hk]
  have hflat := congrArg (List.filterMap id) hrows
  rw [List.filterMap_map, List.filterMap_map] at hflat
  rw [iterNormalizedFilings, List.map_filterMap]
  have hall : (List.range n).filterMap (id ∘ fun i => some (decide (i < k c))) =
      (List.range n).map fun i => decide (i < k c) := congrFun List.filterMap_eq_map' _
  exact hflat.trans hall

/-- The shape decides: stacked documents keep their filings together whatever the arrays hold, and others do not. -/
theorem merge_aligned_iff (rd : IsoReader) (hrd : rd.Plain) (base : Feed) (shards : List Feed) :
    (∀ (h : Header) (symbol : Option String) (forms : List String) (base' : Feed) (shards' : List Feed),
      base'.shape = base.shape → shards'.map Feed.shape = shards.map Feed.shape →
        iterNormalizedFilings rd h symbol forms (mergeAll base' shards') =
          (base' :: shards').flatMap fun d => iterNormalizedFilings rd h symbol forms d.toRecent) ↔
      Stacked (base :: shards) := by
  constructor
  · intro haligned c
    have heq := haligned ⟨320193, "", []⟩ none [] base.plain (shards.map Feed.plain) (shape_plain base)
      (by simp [Function.comp_def, shape_plain])
    rw [mergeAll_eq, ← List.map_cons, List.flatMap_map] at heq
    obtain ⟨n, k, hplain⟩ := plainTo_concatAll (base :: shards)
    have hshows := congrArg (List.map (shows c)) heq
    rw [shows_of_plainTo hrd _ _ hplain, List.map_flatMap] at hshows
    have hsorted : ((List.range n).map fun i => decide (i < k c)).Pairwise fun x y => y = true → x = true := by
      refine List.pairwise_map.2 (List.pairwise_lt_range.imp fun {i j} hij hj => ?_)
      rw [decide_eq_true_eq] at hj ⊢
      omega
    rw [hshows, List.pairwise_flatMap] at hsorted
    refine hsorted.2.imp fun {a b} hab hb => ?_
    -- a filing of the later document shows the column, so every filing of the earlier one does
    have hblen : (b.column c).length = b.form.length := (b.column_length c).resolve_left hb
    have hbpos : 0 < (b.column c).length := List.length_pos_iff.2 hb
    rcases a.column_length c with ha | ha
    · rw [ha, List.length_nil]
      by_contra hne
      have hfirst : ∀ d : Feed, 0 < d.form.length → decide (0 < (d.column c).length) ∈
          (iterNormalizedFilings rd ⟨320193, "", []⟩ none [] d.plain.toRecent).map (shows c) := fun d hd => by
        rw [shows_of_plainTo hrd _ _ (plainTo_plain d)]
        exact List.mem_map.2 ⟨0, List.mem_range.2 hd, rfl⟩
      have hboth := hab _ (hfirst a (by omega)) _ (hfirst b (by omega)) (decide_eq_true hbpos)
      simp [ha] at hboth
    · exact ha
  · intro hstacked h symbol forms base' shards' hbase hshards
    have hstacked' : Stacked (base' :: shards') := by
      intro c
      have hlengths : ((base :: shards).map Feed.shape).Pairwise fun x y => y.2 c ≠ 0 → x.2 c = x.1 := by
        refine List.pairwise_map.2 ((hstacked c).imp fun {a b} hab hb => hab fun hnil => hb ?_)
        simp [Feed.shape, hnil]
      rw [List.map_cons, ← hbase, ← hshards, ← List.map_cons] at hlengths
      refine (List.pairwise_map.1 hlengths).imp fun {a b} hab hb => hab ?_
      simpa [Feed.shape] using hb
    rw [mergeAll_eq, iterNormalizedFilings, rows_concatAll hstacked', List.filterMap_flatMap]
    rfl

/-! ## A shard without a column -/

/-- A reader of the texts of the samples. -/
def sampleReader : IsoReader where
  date s := if s = "2024-01-02" then some 738887 else none
  datetime s := if s = "2024-01-02T00:00:00+00:00" then some ⟨true, 1704153600000000, 1704153600000000⟩ else none

theorem sampleReader_plain : sampleReader.Plain := ⟨by decide +kernel, by decide +kernel⟩

/-- One filing with all columns, or all but the items. -/
def sampleFeed (accession : String) (items : Option String) : Feed where
  form := ["8-K"]
  accessionNumber := [some accession]
  column
    | .items => items.toList.map some
    | c => [some (cellText c)]
  accession_length := rfl
  column_length c := by cases c <;> cases items <;> simp

/-- A shard without items at the end does no harm. -/
theorem merge_aligned_sample :
    let base := sampleFeed "0000320193-24-000003" (some "2.02,9.01")
    let shards := [sampleFeed "0000320193-24-000002" (some "5.02"), sampleFeed "0000320193-24-000001" none]
    iterNormalizedFilings sampleReader ⟨320193, "", ["AAPL"]⟩ none ["8-K"] (mergeAll base shards) =
      (base :: shards).flatMap fun d =>
        iterNormalizedFilings sampleReader ⟨320193, "", ["AAPL"]⟩ none ["8-K"] d.toRecent := by
  intro base shards
  refine (merge_aligned_iff sampleReader sampleReader_plain base shards).2 (fun c => ?_) _ _ _ base shards rfl rfl
  cases c <;> simp [base, shards, sampleFeed]

/-- A shard without items between two with items: its filing gets the items of the next one. -/
theorem items_move_to_other_filing :
    let base := sampleFeed "0000320193-24-000003" (some "2.02,9.01")
    let shards := [sampleFeed "0000320193-24-000002" none, sampleFeed "0000320193-24-000001" (some "5.02")]
    (iterNormalizedFilings sampleReader ⟨320193, "", ["AAPL"]⟩ none ["8-K"] (mergeAll base shards)).map
        (fun f => (f.accession, f.items)) =
      [("0000320193-24-000003", ["2.02", "9.01"]), ("0000320193-24-000002", ["5.02"]),
        ("0000320193-24-000001", [])] ∧
    iterNormalizedFilings sampleReader ⟨320193, "", ["AAPL"]⟩ none ["8-K"] (mergeAll base shards) ≠
      (base :: shards).flatMap fun d =>
        iterNormalizedFilings sampleReader ⟨320193, "", ["AAPL"]⟩ none ["8-K"] d.toRecent := by
  decide +kernel

end TalonX.Ingest
