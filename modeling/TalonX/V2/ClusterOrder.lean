import Mathlib.Data.Finset.Dedup
import TalonX.V2.EpisodeIdentity

/-!
# Signals do not depend on the order of the filings

What remains of a dedupe key has the earliest filing date of that key, whatever the order of the records and however often
each of them occurs. The scan reads only filing dates, owners and the issuer, and these come to it in one order.

- `perm_countedRecords`: the dates and owners of the records that take part;
- `signal_scan`: what the scan of records makes of their dates and owners;
- `signals_insensitive`: the signals of two lists that have the same records.
-/

set_option autoImplicit false

namespace TalonX.V2

open Transact

variable {cal : Calendar} {cfg : V2Config} {xs ys : List PurchaseRecord}

/-! ## Signals -/

/-- What identifies a signal and says when it is due. -/
structure Signal where
  episodeId : EpisodeId
  symbol : Symbol
  owners : Finset String
  firstFilingDate : Date
  activationFilingDate : Date
  lastFilingDate : Date
  nFilings : ℕ
  eligibleEntrySession : Date
  deriving DecidableEq

def ClusterEpisode.signal (e : ClusterEpisode) : Signal where
  episodeId := e.episodeId
  symbol := e.symbol
  owners := e.distinctOwnerCiks.toFinset
  firstFilingDate := e.firstFilingDate
  activationFilingDate := e.activationFilingDate
  lastFilingDate := e.lastFilingDate
  nFilings := e.nFilings
  eligibleEntrySession := e.eligibleEntrySession

/-- A record with nothing but its issuer, its owner and its filing date. -/
def PurchaseRecord.plain (r : PurchaseRecord) : PurchaseRecord :=
  { symbol := r.symbol.toUpper, issuerCik := "", ownerCik := r.ownerCik, filingDate := r.filingDate, accession := ""
    transactionDate := none, transactionValue := none, isOfficer := false, isDirector := false, isTenPercent := false
    transactionCode := "" }

@[simp] theorem ownerCik_plain (r : PurchaseRecord) : r.plain.ownerCik = r.ownerCik := rfl

@[simp] theorem filingDate_plain (r : PurchaseRecord) : r.plain.filingDate = r.filingDate := rfl

@[simp] theorem symbol_plain (r : PurchaseRecord) : r.plain.symbol = r.symbol.toUpper := rfl

theorem distinctOwners_plain (w : List PurchaseRecord) : distinctOwners (w.map PurchaseRecord.plain) = distinctOwners w := by
  unfold distinctOwners
  rw [List.map_map]
  rfl

theorem activationDate_plain (n : ℕ) (last : Date) (seen : List String) (w : List PurchaseRecord) :
    activationDate n last seen (w.map PurchaseRecord.plain) = activationDate n last seen w := by
  induction w generalizing seen with
  | nil => rfl
  | cons r w ih =>
    simp only [List.map_cons, activationDate, ownerCik_plain, filingDate_plain, ih]

/-- An episode's signal is that of the plain records. -/
theorem signal_buildEpisode (r : PurchaseRecord) (w : List PurchaseRecord) :
    (buildEpisode cal cfg r.plain (w.map PurchaseRecord.plain)).map ClusterEpisode.signal =
      (buildEpisode cal cfg r w).map ClusterEpisode.signal := by
  have hlast : ((r.plain :: w.map PurchaseRecord.plain).getLast (by simp)).filingDate =
      ((r :: w).getLast (by simp)).filingDate := by
    have hmap := List.getLast_map (f := PurchaseRecord.plain) (l := r :: w) (by simp)
    simp only [List.map_cons] at hmap
    rw [hmap, filingDate_plain]
  have hactivation : ∀ last, activationDate cfg.minDistinctOwners last [] (r.plain :: w.map PurchaseRecord.plain) =
      activationDate cfg.minDistinctOwners last [] (r :: w) := fun last =>
    activationDate_plain cfg.minDistinctOwners last [] (r :: w)
  have hfilter : ∀ d : Date, (r.plain :: w.map PurchaseRecord.plain).filter (·.filingDate ≤ d) =
      ((r :: w).filter (·.filingDate ≤ d)).map PurchaseRecord.plain := fun d => by
    rw [← List.map_cons, List.filter_map]
    rfl
  unfold buildEpisode
  dsimp only
  rw [hlast, hactivation, hfilter, distinctOwners_plain]
  simp only [Option.map_map, Function.comp_def, ClusterEpisode.signal, List.length_map, List.getLast?_map,
    Option.map_map, symbol_plain, filingDate_plain, toUpper_toUpper]

/-- So are the signals of a scan. -/
theorem signal_scan (fuel : ℕ) (zs : List (PurchaseRecord × ℕ)) :
    (scan cal cfg fuel (zs.map (Prod.map PurchaseRecord.plain id))).map (List.map ClusterEpisode.signal) =
      (scan cal cfg fuel zs).map (List.map ClusterEpisode.signal) := by
  induction fuel generalizing zs with
  | zero => rfl
  | succ fuel ih =>
    cases zs with
    | nil => rfl
    | cons z rest =>
      obtain ⟨r, ord⟩ := z
      have hwindow : windowOf cfg ord (rest.map (Prod.map PurchaseRecord.plain id)) =
          (windowOf cfg ord rest).map PurchaseRecord.plain := by
        unfold windowOf
        rw [List.takeWhile_map, List.map_map, List.map_map]
        rfl
      have hbehind : behindWindow cfg ord (rest.map (Prod.map PurchaseRecord.plain id)) =
          (behindWindow cfg ord rest).map (Prod.map PurchaseRecord.plain id) := by
        unfold behindWindow
        rw [List.dropWhile_map]
        rfl
      have hbuild := @signal_buildEpisode cal cfg r (windowOf cfg ord rest)
      rw [List.map_cons, Prod.map_apply, id, scan_cons, scan_cons, hwindow, hbehind, ← List.map_cons, distinctOwners_plain]
      split
      · cases hb : buildEpisode cal cfg r (windowOf cfg ord rest) with
        | none =>
          rw [hb, Option.map_none, Option.map_eq_none_iff] at hbuild
          rw [hbuild]
        | some ep =>
          rw [hb, Option.map_some] at hbuild
          obtain ⟨ep', hep', hsignal⟩ := Option.map_eq_some_iff.1 hbuild
          have hrest := ih (behindWindow cfg ord rest)
          rw [hep']
          dsimp only
          rw [Option.map_map, Option.map_map]
          have hcons : ∀ e : ClusterEpisode, (List.map ClusterEpisode.signal ∘ fun es => e :: es) =
              (fun ss => e.signal :: ss) ∘ List.map ClusterEpisode.signal := fun _ => rfl
          rw [hcons, hcons, ← Option.map_map, ← Option.map_map, hrest, hsignal]
      · exact ih rest

/-! ## Records without duplicates -/

/-- The key of a record with the date it was filed. -/
def PurchaseRecord.keyed (r : PurchaseRecord) : (String × String × Option Date × ℚ) × Date := (r.dedupeKey, r.filingDate)

theorem mem_keyed_countedRecords {x : (String × String × Option Date × ℚ) × Date} :
    x ∈ (countedRecords cfg xs).map PurchaseRecord.keyed ↔ ∃ r ∈ xs, r.keyed = x ∧ FirstFiled cfg xs r := by
  rw [List.mem_map]
  constructor
  · rintro ⟨r, hr, hx⟩
    obtain ⟨hmem, hc⟩ := mem_countedRecords hr
    exact ⟨r, hmem, hx, hc, fun q hq hqc hk => filingDate_le_of_mem_countedRecords hr hq hqc hk⟩
  · rintro ⟨r, hr, hx, hc, hfirst⟩
    obtain ⟨q, hq, hk⟩ := exists_mem_countedRecords hr hc
    obtain ⟨hqm, hqc⟩ := mem_countedRecords hq
    have hdate : q.filingDate = r.filingDate :=
      le_antisymm (filingDate_le_of_mem_countedRecords hq hr hc hk.symm) (hfirst q hqm hqc hk)
    refine ⟨q, hq, ?_⟩
    rw [← hx, PurchaseRecord.keyed, PurchaseRecord.keyed, hk, hdate]

/-- The records that take part, up to what the key and the date do not tell. -/
theorem perm_keyed (h : ∀ r, r ∈ xs ↔ r ∈ ys) :
    ((countedRecords cfg xs).map PurchaseRecord.keyed).Perm ((countedRecords cfg ys).map PurchaseRecord.keyed) := by
  have hnodup : ∀ zs : List PurchaseRecord, ((countedRecords cfg zs).map PurchaseRecord.keyed).Nodup := by
    intro zs
    have hkeys := nodup_firstOccurrences PurchaseRecord.dedupeKey ((zs.filter (·.counted cfg)).insertionSort dedupeLe)
    have hfst : ((countedRecords cfg zs).map PurchaseRecord.keyed).map Prod.fst =
        (countedRecords cfg zs).map PurchaseRecord.dedupeKey := by
      rw [List.map_map]
      rfl
    apply List.Nodup.of_map Prod.fst
    rw [hfst]
    exact hkeys
  apply (List.perm_ext_iff_of_nodup (hnodup xs) (hnodup ys)).2
  intro x
  rw [mem_keyed_countedRecords, mem_keyed_countedRecords]
  have hfirst : ∀ r, FirstFiled cfg xs r ↔ FirstFiled cfg ys r := by
    intro r
    simp only [FirstFiled, h]
  simp only [h, hfirst]

/-- What the sort looks at. -/
def PurchaseRecord.dated (r : PurchaseRecord) : Date × String := (r.filingDate, r.ownerCik)

theorem perm_countedRecords (h : ∀ r, r ∈ xs ↔ r ∈ ys) :
    ((countedRecords cfg xs).map PurchaseRecord.dated).Perm ((countedRecords cfg ys).map PurchaseRecord.dated) := by
  have hdated : ∀ zs : List PurchaseRecord, zs.map PurchaseRecord.dated =
      (zs.map PurchaseRecord.keyed).map fun x => (x.2, x.1.2.1) := by
    intro zs
    rw [List.map_map]
    rfl
  rw [hdated, hdated]
  exact (perm_keyed h).map _

/-! ## Sorting -/

theorem map_orderByDateText {α β : Type} (k : α → Date × String) (k' : β → Date × String) {f : α → β}
    (hk : ∀ a, k' (f a) = k a) (l : List α) : (orderByDateText k l).map f = orderByDateText k' (l.map f) := by
  apply List.map_insertionSort
  intro a _ b _
  rw [hk, hk]

/-- Dates with texts come into one order, whatever order they had. -/
theorem orderByDateText_eq_of_perm {l l' : List (Date × String)} (h : l.Perm l') :
    orderByDateText id l = orderByDateText id l' := by
  let le : Date × String → Date × String → Prop := lexBy (fun a => a.1) fun a b => a.2 ≤ b.2
  have htotal : Std.Total le := ⟨lexBy_total _ fun _ _ => String.le_total _ _⟩
  have htrans : IsTrans (Date × String) le :=
    ⟨fun a b c => by
      refine lexBy_trans _ fun a b c hab hbc => ?_
      exact String.le_trans hab hbc⟩
  have hsorted : ∀ l : List (Date × String), (orderByDateText id l).Pairwise le := fun l =>
    List.pairwise_insertionSort le l
  have hperm : (orderByDateText id l).Perm (orderByDateText id l') :=
    ((List.perm_insertionSort le l).trans h).trans (List.perm_insertionSort le l').symm
  refine List.Perm.eq_of_pairwise ?_ (hsorted l) (hsorted l') hperm
  rintro ⟨d, o⟩ ⟨d', o'⟩ - - hab hba
  rcases hab with hlt | ⟨hd, ho⟩
  · rcases hba with hgt | ⟨hd', -⟩
    · exact absurd hlt (lt_asymm hgt)
    · exact absurd hd' hlt.ne'
  · rcases hba with hgt | ⟨-, ho'⟩
    · exact absurd hd hgt.ne'
    · exact Prod.ext hd (String.le_antisymm ho ho')

/-- The scan gets the plain records in one order. -/
theorem plain_sortByFiling {sym : Symbol} (h : ∀ r, r ∈ xs ↔ r ∈ ys) (hsym : ∀ r ∈ xs, r.symbol.toUpper = sym) :
    (sortByFiling (countedRecords cfg xs)).map PurchaseRecord.plain =
      (sortByFiling (countedRecords cfg ys)).map PurchaseRecord.plain := by
  let rebuild : Date × String → PurchaseRecord := fun x =>
    { symbol := sym, issuerCik := "", ownerCik := x.2, filingDate := x.1, accession := "", transactionDate := none
      transactionValue := none, isOfficer := false, isDirector := false, isTenPercent := false, transactionCode := "" }
  have hplain : ∀ zs : List PurchaseRecord, (∀ r ∈ zs, r.symbol.toUpper = sym) →
      (sortByFiling (countedRecords cfg zs)).map PurchaseRecord.plain =
        (orderByDateText id ((countedRecords cfg zs).map PurchaseRecord.dated)).map rebuild := by
    intro zs hz
    have hsort : (sortByFiling (countedRecords cfg zs)).map PurchaseRecord.dated =
        orderByDateText id ((countedRecords cfg zs).map PurchaseRecord.dated) := 
      map_orderByDateText (fun r : PurchaseRecord => (r.filingDate, r.ownerCik)) id (fun _ => rfl) _
    rw [← hsort, List.map_map]
    apply List.map_congr_left
    intro r hr
    have hr' : r.symbol.toUpper = sym := hz r (mem_countedRecords (mem_orderByDateText.1 hr)).1
    show r.plain = rebuild r.dated
    rw [PurchaseRecord.plain, hr']
    rfl
  rw [hplain xs hsym, hplain ys fun r hr => hsym r ((h r).2 hr), orderByDateText_eq_of_perm (perm_countedRecords h)]

theorem mapM_pair_map {α β γ : Type} {f : β → Option γ} {g : α → β} (l : List α) :
    (l.mapM fun x => (f (g x)).map fun y => (x, y)).map (List.map (Prod.map g id)) =
      (l.map g).mapM fun x => (f x).map fun y => (x, y) := by
  induction l with
  | nil => rfl
  | cons a l ih =>
    rw [List.map_cons, List.mapM_cons, List.mapM_cons, ← ih]
    cases f (g a) with
    | none => rfl
    | some y => cases List.mapM (fun x => (f (g x)).map fun y => (x, y)) l <;> rfl

/-! ## Detections -/

theorem signals_forIssuer {sym : Symbol} (h : ∀ r, r ∈ xs ↔ r ∈ ys) (hsym : ∀ r ∈ xs, r.symbol.toUpper = sym) :
    (detectEpisodesForIssuer cal cfg xs).map (List.map ClusterEpisode.signal) =
      (detectEpisodesForIssuer cal cfg ys).map (List.map ClusterEpisode.signal) := by
  have hlength : (countedRecords cfg xs).length = (countedRecords cfg ys).length := by
    have hperm := (@perm_countedRecords cfg xs ys h).length_eq
    rw [List.length_map, List.length_map] at hperm
    exact hperm
  have hords : (withOrdinals cal (countedRecords cfg xs)).map (List.map (Prod.map PurchaseRecord.plain id)) =
      (withOrdinals cal (countedRecords cfg ys)).map (List.map (Prod.map PurchaseRecord.plain id)) := by
    have hmap : ∀ l : List PurchaseRecord, (withOrdinals cal l).map (List.map (Prod.map PurchaseRecord.plain id)) =
        ((sortByFiling l).map PurchaseRecord.plain).mapM
          fun r => (cal.sessionOrdinal r.filingDate true).map fun ord => (r, ord) := fun l =>
      mapM_pair_map (f := fun r : PurchaseRecord => cal.sessionOrdinal r.filingDate true) (sortByFiling l)
    rw [hmap, hmap, plain_sortByFiling h hsym]
  rw [detectEpisodesForIssuer_eq, detectEpisodesForIssuer_eq, hlength]
  split
  · rfl
  cases hx : withOrdinals cal (countedRecords cfg xs) with
  | none =>
    rw [hx, Option.map_none] at hords
    rw [Option.map_eq_none_iff.1 hords.symm]
  | some zs =>
    rw [hx, Option.map_some] at hords
    obtain ⟨zs', hy, hzs⟩ := Option.map_eq_some_iff.1 hords.symm
    have hlen : zs'.length = zs.length := by
      rw [← List.length_map (Prod.map PurchaseRecord.plain id), hzs, List.length_map]
    rw [hy]
    dsimp only
    rw [← signal_scan, ← signal_scan zs'.length zs', hzs, hlen]

theorem map_mapM_congr {α β γ : Type} {f f' : α → Option β} {g : β → γ} {l : List α}
    (h : ∀ a ∈ l, (f a).map g = (f' a).map g) : (l.mapM f).map (List.map g) = (l.mapM f').map (List.map g) := by
  induction l with
  | nil => rfl
  | cons a l ih =>
    obtain ⟨ha, hl⟩ := List.forall_mem_cons.1 h
    have hrest := ih hl
    rw [List.mapM_cons, List.mapM_cons]
    cases hfa : f a with
    | none =>
      rw [hfa, Option.map_none] at ha
      rw [Option.map_eq_none_iff.1 ha.symm]
      rfl
    | some b =>
      rw [hfa, Option.map_some] at ha
      obtain ⟨b', hb', hg⟩ := Option.map_eq_some_iff.1 ha.symm
      rw [hb']
      cases hm : l.mapM f with
      | none =>
        rw [hm, Option.map_none] at hrest
        have hm' := Option.map_eq_none_iff.1 hrest.symm
        show Option.map _ (Option.bind _ _) = Option.map _ (Option.bind _ _)
        rw [hm']
        rfl
      | some bs =>
        rw [hm, Option.map_some] at hrest
        obtain ⟨bs', hm', hgs⟩ := Option.map_eq_some_iff.1 hrest.symm
        rw [hm']
        show some (g b :: bs.map g) = some (g b' :: bs'.map g)
        rw [hg, hgs]

theorem issuers_congr (h : ∀ r, r ∈ xs ↔ r ∈ ys) : issuers xs = issuers ys := by
  have hmem : ∀ zs : List PurchaseRecord, ∀ s, s ∈ firstOccurrences id (zs.map fun r => r.symbol.toUpper) ↔
      ∃ r ∈ zs, r.symbol.toUpper = s := fun zs s => by rw [mem_firstOccurrences_id, List.mem_map]
  have hnodup : ∀ zs : List PurchaseRecord, (firstOccurrences id (zs.map fun r => r.symbol.toUpper)).Nodup := by
    intro zs
    have hkeys := nodup_firstOccurrences id (zs.map fun r => r.symbol.toUpper)
    rwa [List.map_id] at hkeys
  have hperm : (firstOccurrences id (xs.map fun r => r.symbol.toUpper)).Perm
      (firstOccurrences id (ys.map fun r => r.symbol.toUpper)) := by
    apply (List.perm_ext_iff_of_nodup (hnodup xs) (hnodup ys)).2
    intro s
    rw [hmem, hmem]
    simp only [h]
  unfold issuers
  exact List.Perm.eq_of_pairwise' (List.pairwise_insertionSort _ _) (List.pairwise_insertionSort _ _)
    (((List.perm_insertionSort _ _).trans hperm).trans (List.perm_insertionSort _ _).symm)

theorem signals_insensitive (cal : Calendar) (cfg : V2Config) (xs ys : List PurchaseRecord)
    (h : ∀ r, r ∈ xs ↔ r ∈ ys) : (detectEpisodes cal cfg xs).map (List.map ClusterEpisode.signal) =
      (detectEpisodes cal cfg ys).map (List.map ClusterEpisode.signal) := by
  have hgroups : ((issuers xs).mapM fun sym => detectEpisodesForIssuer cal cfg (recordsOf sym xs)).map
        (List.map (List.map ClusterEpisode.signal)) =
      ((issuers ys).mapM fun sym => detectEpisodesForIssuer cal cfg (recordsOf sym ys)).map
        (List.map (List.map ClusterEpisode.signal)) := by
    rw [issuers_congr h]
    apply map_mapM_congr
    intro sym _
    refine signals_forIssuer (fun r => ?_) symbol_of_mem_recordsOf
    rw [recordsOf, recordsOf, List.mem_filter, List.mem_filter, h]
  have hordered : ∀ groups : List (List ClusterEpisode),
      (orderByDateText (fun e : ClusterEpisode => (e.eligibleEntrySession, e.symbol)) groups.flatten).map
          ClusterEpisode.signal =
        orderByDateText (fun e : Signal => (e.eligibleEntrySession, e.symbol))
          (groups.map (List.map ClusterEpisode.signal)).flatten := by
    intro groups
    have hsort := map_orderByDateText (fun e : ClusterEpisode => (e.eligibleEntrySession, e.symbol))
      (fun e : Signal => (e.eligibleEntrySession, e.symbol)) (f := ClusterEpisode.signal) (fun _ => rfl) groups.flatten
    rw [hsort, List.map_flatten]
  have hdetect : ∀ zs : List PurchaseRecord, (detectEpisodes cal cfg zs).map (List.map ClusterEpisode.signal) =
      (((issuers zs).mapM fun sym => detectEpisodesForIssuer cal cfg (recordsOf sym zs)).map
        (List.map (List.map ClusterEpisode.signal))).map fun groups =>
          orderByDateText (fun e : Signal => (e.eligibleEntrySession, e.symbol)) groups.flatten := by
    intro zs
    rw [detectEpisodes_eq, Option.map_map, Option.map_map]
    congr 1
    funext groups
    exact hordered groups
  rw [hdetect, hdetect, hgroups]

/-- The later filing first, and once more at the end. -/
theorem signals_insensitive_sample :
    (detectEpisodes (.weekdays 100) {} [purchase "p" 28, purchase "q" 29]).map (List.map ClusterEpisode.signal) =
      (detectEpisodes (.weekdays 100) {} [purchase "q" 29, purchase "p" 28, purchase "q" 29]).map
        (List.map ClusterEpisode.signal) := by
  apply signals_insensitive
  intro r
  simp only [List.mem_cons, List.not_mem_nil, or_false]
  tauto

end TalonX.V2
