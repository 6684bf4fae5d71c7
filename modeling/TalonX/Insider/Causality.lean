import Mathlib.Data.List.Dedup
import TalonX.Insider.Activity
import TalonX.Transact.Text

/-!
# What the future shows in an activity

`build_insider_activity` is asked for a date. The transactions are cut off at the end of that date by their acceptance,
the filings are not cut off at all.

- `buildActivity_recent`: the aggregates read recent rows only;
- `activityFrom_eq_iff`: what the results of the two queries have to agree on;
- `laterThan`: a row that was accepted, or, where that is unknown, filed after the date;
- `mem_undated`, `latestFilings_eq`: how the later rows pass the two queries;
- `activity_same_iff`: what two contents with one past have to agree on.
-/

set_option autoImplicit false

namespace TalonX.Insider

open Clock
open Transact (lexBy_total lexBy_trans filter_insertionSort insertionSort_congr Closes take_append_inj)

variable (lib : Lib)

/-! ## Recent rows -/

/-- A row that `build_insider_activity` lists: every dated one when the window reaches back before the first day. -/
def isRecent (asOf : Date) (t : InsiderTransaction) : Bool :=
  t.transactionDate.any fun d => (asOf.minusDays recentTransactionsWindowDays).all (· ≤ d)

theorem recentTransactions_eq_none_iff {asOf : Date} {txns : List InsiderTransaction} :
    recentTransactions asOf txns = none ↔
      asOf.minusDays recentTransactionsWindowDays = none ∧ ∃ t ∈ txns, t.transactionDate.isSome = true := by
  unfold recentTransactions
  by_cases h : txns.any (·.transactionDate.isSome) = true
  · rw [if_pos h, Option.map_eq_none_iff]
    exact (and_iff_left (List.any_eq_true.1 h)).symm
  · rw [if_neg h]
    refine ⟨fun hc => by simp at hc, fun hc => absurd (List.any_eq_true.2 hc.2) h⟩

theorem recentTransactions_eq_some {asOf : Date} {txns recent : List InsiderTransaction}
    (h : recentTransactions asOf txns = some recent) : recent = txns.filter (isRecent asOf) := by
  unfold recentTransactions at h
  by_cases hd : txns.any (·.transactionDate.isSome) = true
  · rw [if_pos hd] at h
    obtain ⟨start, hs, rfl⟩ := Option.map_eq_some_iff.1 h
    refine List.filter_congr fun t _ => ?_
    rw [isRecent, hs]
    rfl
  · rw [if_neg hd] at h
    obtain rfl : [] = recent := Option.some.inj h
    refine (List.filter_eq_nil_iff.2 fun t ht => ?_).symm
    have hnone : ¬ t.transactionDate.isSome = true := fun hs => hd (List.any_eq_true.2 ⟨t, ht, hs⟩)
    rw [isRecent, Option.not_isSome_iff_eq_none.1 hnone]
    simp

/-- No window reaches back further than the recent rows. -/
theorem inWindow_of_recent {asOf : Date} {days : ℕ} (hdays : days ≤ recentTransactionsWindowDays)
    {t : InsiderTransaction} (h : inWindow asOf days t = true) : isRecent asOf t = true := by
  unfold inWindow at h
  split at h
  · next d start hd hstart =>
    rw [isRecent, hd, Option.any_some, Option.all_eq_true]
    intro s90 h90
    have hle : s90 ≤ start := by
      unfold Date.minusDays at hstart h90
      split at hstart <;> split at h90
      · obtain rfl := Option.some.inj hstart
        obtain rfl := Option.some.inj h90
        exact Nat.sub_le_sub_left hdays asOf.ordinal
      all_goals simp at hstart h90
    have hd' : start ≤ d := by
      rw [Bool.and_eq_true, decide_eq_true_iff] at h
      exact h.1
    exact decide_eq_true (hle.trans hd')
  · simp at h

theorem windowRows_recent {asOf : Date} {days : ℕ} (hdays : days ≤ recentTransactionsWindowDays)
    (txns : List InsiderTransaction) :
    windowRows asOf days (txns.filter (isRecent asOf)) = windowRows asOf days txns := by
  rw [windowRows, List.filter_filter, windowRows]
  refine List.filter_congr fun t _ => ?_
  by_cases ht : inWindow asOf days t = true
  · rw [inWindow_of_recent hdays ht, Bool.and_true]
  · simp [ht]

/-! ## Two contents that give one activity -/

section Contents

variable {S T : InsiderStore} {symbol : String} {asOf : Date} {now : Utc}

theorem rollingOpenMarket_recent {days : ℕ} (hdays : days ≤ recentTransactionsWindowDays)
    (txns : List InsiderTransaction) :
    rollingOpenMarket lib (txns.filter (isRecent asOf)) asOf days = rollingOpenMarket lib txns asOf days := by
  unfold rollingOpenMarket
  rw [windowRows_recent hdays]

theorem detectClusters_recent {days : ℕ} (hdays : days ≤ recentTransactionsWindowDays)
    (txns : List InsiderTransaction) :
    detectClusters lib (txns.filter (isRecent asOf)) asOf days = detectClusters lib txns asOf days := by
  unfold detectClusters
  rw [windowRows_recent hdays]

theorem roleSubsetAggregates_recent {days : ℕ} (hdays : days ≤ recentTransactionsWindowDays)
    (txns : List InsiderTransaction) :
    roleSubsetAggregates lib (txns.filter (isRecent asOf)) asOf days = roleSubsetAggregates lib txns asOf days := by
  unfold roleSubsetAggregates
  rw [windowRows_recent hdays]

theorem windows_le {days : ℕ} (h : days ∈ rollingWindowsCalendarDays) : days ≤ recentTransactionsWindowDays := by
  revert days
  decide

/-- The aggregates are those of the recent rows. -/
theorem buildActivity_recent (issuerCik companyName : String) (filings : List InsiderFiling)
    (txns recent : List InsiderTransaction) (evidence : List EvidenceRecord) (flags : List String) :
    buildActivity lib symbol issuerCik companyName filings (txns.filter (isRecent asOf)) asOf recent evidence flags =
      buildActivity lib symbol issuerCik companyName filings txns asOf recent evidence flags := by
  have hrolling : rollingWindowsCalendarDays.map (rollingOpenMarket lib (txns.filter (isRecent asOf)) asOf) =
      rollingWindowsCalendarDays.map (rollingOpenMarket lib txns asOf) :=
    List.map_congr_left fun _ hd => rollingOpenMarket_recent lib (windows_le hd) txns
  have hroles : rollingWindowsCalendarDays.flatMap (roleSubsetAggregates lib (txns.filter (isRecent asOf)) asOf) =
      rollingWindowsCalendarDays.flatMap (roleSubsetAggregates lib txns asOf) :=
    List.flatMap_congr fun _ hd => roleSubsetAggregates_recent lib (windows_le hd) txns
  have hclusters : detectClusters lib (txns.filter (isRecent asOf)) asOf clusterWindowCalendarDays =
      detectClusters lib txns asOf clusterWindowCalendarDays := detectClusters_recent lib (by decide) txns
  unfold buildActivity
  rw [hrolling, hroles, hclusters]

/-- The note tells the number of the transactions. -/
theorem length_of_note {filings : List InsiderFiling} {txns txns' recent recent' : List InsiderTransaction}
    (h : activityNote filings txns recent = activityNote filings txns' recent') : txns.length = txns'.length := by
  unfold activityNote at h
  have hl := congrArg String.toList h
  simp only [String.toList_append, List.append_assoc, Nat.toString_eq_repr, Nat.toList_repr] at hl
  have hl := List.append_cancel_left (List.append_cancel_left hl)
  exact Transact.eq_of_numeral_append (by decide : ' '.isDigit = false) hl

/-- The issuer that the first transaction names. -/
def firstIssuer (txns : List InsiderTransaction) : Option (String × String) :=
  txns.head?.map fun t => (t.issuerCik, t.companyName)

theorem issuerOf_eq_iff {filings : List InsiderFiling} {txns txns' : List InsiderTransaction}
    (h : txns.length = txns'.length) :
    issuerOf filings txns = issuerOf filings txns' ↔ (filings = [] → firstIssuer txns = firstIssuer txns') := by
  cases filings with
  | cons f filings => exact ⟨fun _ hc => absurd hc (List.cons_ne_nil f filings), fun _ => rfl⟩
  | nil =>
    cases txns with
    | nil =>
      obtain rfl : txns' = [] := List.eq_nil_of_length_eq_zero h.symm
      exact ⟨fun _ _ => rfl, fun _ => rfl⟩
    | cons t txns =>
      cases txns' with
      | nil => simp at h
      | cons t' txns' => exact ⟨fun he _ => congrArg some he, fun he => Option.some.inj (he rfl)⟩

theorem activityFrom_eq_iff {filings filings' : List InsiderFiling} {txns txns' : List InsiderTransaction} :
    activityFrom lib symbol now asOf filings txns = activityFrom lib symbol now asOf filings' txns' ↔
      (recentTransactions asOf txns = none ∧ recentTransactions asOf txns' = none) ∨
        (recentTransactions asOf txns = recentTransactions asOf txns' ∧ filings = filings' ∧
          txns.length = txns'.length ∧ flagSummary txns = flagSummary txns' ∧
          (filings = [] → firstIssuer txns = firstIssuer txns')) := by
  unfold activityFrom
  refine ⟨fun h => ?_, fun h => ?_⟩
  · cases hr : recentTransactions asOf txns with
    | none =>
      rw [hr, Option.map_none] at h
      exact Or.inl ⟨rfl, Option.map_eq_none_iff.1 h.symm⟩
    | some recent =>
      cases hr' : recentTransactions asOf txns' with
      | none =>
        rw [hr, hr', Option.map_none, Option.map_some] at h
        cases h
      | some recent' =>
        rw [hr, hr', Option.map_some, Option.map_some] at h
        have hact := Option.some.inj h
        obtain rfl : filings = filings' := congrArg InsiderActivity.latestFilings hact
        obtain rfl : recent = recent' := congrArg InsiderActivity.transactions hact
        have hev := List.singleton_inj.1 (congrArg InsiderActivity.evidence hact)
        have hlen := length_of_note (congrArg EvidenceRecord.notes hev)
        have hissuer : issuerOf filings txns = issuerOf filings txns' :=
          Prod.ext (congrArg InsiderActivity.issuerCik hact) (congrArg InsiderActivity.companyName hact)
        exact Or.inr ⟨rfl, rfl, hlen, congrArg InsiderActivity.dataQualityFlags hact, (issuerOf_eq_iff hlen).1 hissuer⟩
  · rcases h with ⟨hn, hn'⟩ | ⟨hr, rfl, hlen, hflags, hissuer⟩
    · rw [hn, hn']
      rfl
    · rw [← hr, ← (issuerOf_eq_iff hlen).2 hissuer, ← hflags, ← hlen]
      cases hrec : recentTransactions asOf txns with
      | none => rfl
      | some recent =>
        have hrows := recentTransactions_eq_some hrec
        have hrows' := recentTransactions_eq_some (hr ▸ hrec)
        have hnote : activityNote filings txns recent = activityNote filings txns' recent := by
          unfold activityNote
          rw [hlen]
        rw [Option.map_some, Option.map_some]
        refine congrArg some ?_
        dsimp only
        rw [hnote, ← buildActivity_recent lib _ _ _ txns, ← buildActivity_recent lib _ _ _ txns', ← hrows, ← hrows']

end Contents

/-! ## Later rows -/

/-- Accepted after the end of the date, or filed after it when the acceptance is unknown. -/
def knownAfter (asOf : Date) (accepted : Option Utc) (filed : Option Date) : Bool :=
  match accepted with
  | some a => asOf < a.date
  | none => filed.any (asOf < ·)

def InsiderTransaction.laterThan (asOf : Date) (t : InsiderTransaction) : Bool :=
  knownAfter asOf t.acceptedAtUtc t.filingDate

def InsiderFiling.laterThan (asOf : Date) (f : InsiderFiling) : Bool := knownAfter asOf f.acceptedAtUtc f.filingDate

/-- The contents differ in later rows only. -/
structure SamePast (asOf : Date) (S T : InsiderStore) : Prop where
  filings : ∀ f : InsiderFiling, f.laterThan asOf = false → (f ∈ S.filings.rows ↔ f ∈ T.filings.rows)
  transactions : ∀ t : InsiderTransaction, t.laterThan asOf = false → (t ∈ S.transactions.rows ↔ t ∈ T.transactions.rows)

namespace InsiderStore

variable (S : InsiderStore) (symbol : String) (asOf : Date)

/-- The later filings of the symbol, newest first. -/
def laterFilings : List InsiderFiling :=
  (S.filings.rows.filter fun f => f.symbol == symbol && f.laterThan asOf).insertionSort NewestFirst

/-- The later transactions of the symbol that have no acceptance time. -/
def undated : List InsiderTransaction :=
  S.transactions.rows.filter fun t => t.symbol == symbol && t.acceptedAtUtc.isNone && t.filingDate.any (asOf < ·)

/-- The transactions that pass the cutoff, oldest first. -/
def visible : List InsiderTransaction := S.queryTransactions symbol (some asOf.lastSecond)

end InsiderStore

section Queries

variable {S T : InsiderStore} {symbol : String} {asOf : Date}

theorem laterThan_of_isNone {t : InsiderTransaction} (h : t.acceptedAtUtc.isNone = true) :
    t.laterThan asOf = t.filingDate.any (asOf < ·) := by
  unfold InsiderTransaction.laterThan
  rw [Option.isNone_iff_eq_none.1 h]
  rfl

/-- The cutoff stops every later transaction whose acceptance is known. -/
theorem acceptedBy_lastSecond {t : InsiderTransaction} (h : t.laterThan asOf = true) :
    t.acceptedBy (some asOf.lastSecond) = t.acceptedAtUtc.isNone := by
  unfold InsiderTransaction.laterThan knownAfter at h
  unfold InsiderTransaction.acceptedBy
  cases ha : t.acceptedAtUtc with
  | none => rfl
  | some a =>
    rw [ha] at h
    have hlt := asOf.startsWithDate_lastSecond.lt a.startsWithDate (of_decide_eq_true h)
    simpa using hlt

theorem mem_visible {t : InsiderTransaction} :
    t ∈ S.visible symbol asOf ↔
      t ∈ S.transactions.rows ∧ (t.symbol == symbol && t.acceptedBy (some asOf.lastSecond)) = true := by
  rw [InsiderStore.visible, InsiderStore.queryTransactions, (List.perm_insertionSort _ _).mem_iff, List.mem_filter]

theorem nodup_visible : (S.visible symbol asOf).Nodup :=
  (List.perm_insertionSort _ _).nodup_iff.2 (S.transactions.nodup.filter _)

theorem mem_undated {t : InsiderTransaction} :
    t ∈ S.undated symbol asOf ↔ t ∈ S.visible symbol asOf ∧ t.laterThan asOf = true := by
  rw [InsiderStore.undated, List.mem_filter, mem_visible]
  refine ⟨fun ⟨hmem, hcond⟩ => ?_, fun ⟨⟨hmem, hcond⟩, hlater⟩ => ?_⟩
  · rw [Bool.and_eq_true, Bool.and_eq_true] at hcond
    obtain ⟨⟨hsym, hnone⟩, hfiled⟩ := hcond
    have hlater : t.laterThan asOf = true := by rw [laterThan_of_isNone hnone, hfiled]
    exact ⟨⟨hmem, by rw [acceptedBy_lastSecond hlater, hsym, hnone]; rfl⟩, hlater⟩
  · rw [acceptedBy_lastSecond hlater, Bool.and_eq_true] at hcond
    rw [laterThan_of_isNone hcond.2] at hlater
    exact ⟨hmem, by rw [hcond.1, hcond.2, hlater]; rfl⟩

/-- Rows of one past that pass the cutoff are the same in both contents, up to the undated ones. -/
theorem SamePast.mem_visible (h : SamePast asOf S T) {t : InsiderTransaction} (ht : t.laterThan asOf = false) :
    t ∈ S.visible symbol asOf ↔ t ∈ T.visible symbol asOf := by
  rw [Insider.mem_visible, Insider.mem_visible, h.transactions t ht]

theorem visible_sorted_filter (p : InsiderTransaction → Bool) :
    (S.visible symbol asOf).filter p = ((S.transactions.rows.filter fun t =>
      t.symbol == symbol && t.acceptedBy (some asOf.lastSecond)).filter p).insertionSort OldestFirst :=
  filter_insertionSort oldestFirst_total oldestFirst_trans p _

/-- Two selections of the visible rows that have the same elements are the same list. -/
theorem visible_filter_congr {p : InsiderTransaction → Bool}
    (h : ∀ t, p t = true → (t ∈ S.visible symbol asOf ↔ t ∈ T.visible symbol asOf)) :
    (S.visible symbol asOf).filter p = (T.visible symbol asOf).filter p := by
  rw [visible_sorted_filter, visible_sorted_filter]
  refine insertionSort_congr oldestFirst_total oldestFirst_trans ((S.transactions.nodup.filter _).filter _)
    ((T.transactions.nodup.filter _).filter _) (fun t => ?_) fun t ht u hu htu hut => ?_
  · rw [List.mem_filter, List.mem_filter, List.mem_filter, List.mem_filter, ← mem_visible, ← mem_visible]
    exact and_congr_left fun hp => h t hp
  · exact S.transactions.eq_of_key (List.mem_of_mem_filter (List.mem_of_mem_filter ht))
      (List.mem_of_mem_filter (List.mem_of_mem_filter hu)) (oldestFirst_antisymm htu hut)

theorem SamePast.earlier (h : SamePast asOf S T) :
    (S.visible symbol asOf).filter (!·.laterThan asOf) = (T.visible symbol asOf).filter (!·.laterThan asOf) :=
  visible_filter_congr fun t ht => h.mem_visible (by simpa using ht)

theorem length_undated : ((S.visible symbol asOf).filter (·.laterThan asOf)).length = (S.undated symbol asOf).length := by
  refine List.Perm.length_eq ((List.perm_ext_iff_of_nodup (nodup_visible.filter _) ?_).2 fun t => ?_)
  · exact S.transactions.nodup.filter _
  · rw [List.mem_filter, mem_undated]

theorem SamePast.length_eq_iff (h : SamePast asOf S T) :
    (S.visible symbol asOf).length = (T.visible symbol asOf).length ↔
      (S.undated symbol asOf).length = (T.undated symbol asOf).length := by
  have hS := List.length_eq_length_filter_add (l := S.visible symbol asOf) (·.laterThan asOf)
  have hT := List.length_eq_length_filter_add (l := T.visible symbol asOf) (·.laterThan asOf)
  rw [length_undated] at hS hT
  have he : ((S.visible symbol asOf).filter (!·.laterThan asOf)).length =
      ((T.visible symbol asOf).filter (!·.laterThan asOf)).length := congrArg List.length h.earlier
  omega

theorem SamePast.recent_eq_iff (h : SamePast asOf S T) :
    (S.visible symbol asOf).filter (isRecent asOf) = (T.visible symbol asOf).filter (isRecent asOf) ↔
      ∀ t, isRecent asOf t = true → (t ∈ S.undated symbol asOf ↔ t ∈ T.undated symbol asOf) := by
  refine ⟨fun he t ht => ?_, fun he => visible_filter_congr fun t ht => ?_⟩
  · have hmem : t ∈ (S.visible symbol asOf).filter (isRecent asOf) ↔
        t ∈ (T.visible symbol asOf).filter (isRecent asOf) := by rw [he]
    rw [List.mem_filter, List.mem_filter, and_iff_left ht, and_iff_left ht] at hmem
    rw [mem_undated, mem_undated, hmem]
  · by_cases hlater : t.laterThan asOf = true
    · have := he t ht
      rwa [mem_undated, mem_undated, and_iff_left hlater, and_iff_left hlater] at this
    · exact h.mem_visible (by simpa using hlater)

theorem flagSummary_eq_iff {txns txns' : List InsiderTransaction} :
    flagSummary txns = flagSummary txns' ↔
      ∀ flag, (∃ t ∈ txns, flag ∈ t.dataQualityFlags) ↔ ∃ t ∈ txns', flag ∈ t.dataQualityFlags := by
  have hmem : ∀ (l : List InsiderTransaction) (flag : String),
      flag ∈ flagSummary l ↔ ∃ t ∈ l, flag ∈ t.dataQualityFlags := fun l flag => by
    rw [flagSummary, (List.perm_insertionSort _ _).mem_iff, List.mem_dedup, List.mem_flatMap]
  refine ⟨fun he flag => by rw [← hmem, ← hmem, he], fun he => ?_⟩
  refine insertionSort_congr (fun a b => le_total a b) (fun a b c => le_trans) (List.nodup_dedup _) (List.nodup_dedup _)
    (fun flag => ?_) fun a _ b _ => le_antisymm
  rw [List.mem_dedup, List.mem_dedup, List.mem_flatMap, List.mem_flatMap, he]

/-! ## Filings -/

theorem stamp_startsWithDate {f : InsiderFiling} (h : f.laterThan asOf = true) :
    ∃ (d : Date) (s : String), asOf < d ∧ StartsWithDate d.ordinal s ∧ f.stamp = (s : Column) := by
  unfold InsiderFiling.laterThan knownAfter at h
  unfold InsiderFiling.stamp
  cases ha : f.acceptedAtUtc with
  | some a =>
    rw [ha] at h
    exact ⟨a.date, _, of_decide_eq_true h, a.startsWithDate, rfl⟩
  | none =>
    rw [ha] at h
    obtain ⟨d, hd, hlt⟩ := (Option.any_eq_true _ _).1 h
    rw [hd]
    exact ⟨d, _, of_decide_eq_true hlt, d.startsWithDate, rfl⟩

/-- The text of an earlier filing is below those of the later ones. -/
theorem stamp_lt {f g : InsiderFiling} (hf : f.laterThan asOf = false) (hg : g.laterThan asOf = true) :
    f.stamp < g.stamp := by
  obtain ⟨d, s, hlt, hs, hstamp⟩ := stamp_startsWithDate hg
  rw [hstamp]
  unfold InsiderFiling.laterThan knownAfter at hf
  unfold InsiderFiling.stamp
  cases ha : f.acceptedAtUtc with
  | some a =>
    rw [ha] at hf
    have hle : a.date ≤ asOf := not_lt.1 (of_decide_eq_false hf)
    exact WithBot.coe_lt_coe.2 (a.startsWithDate.lt hs (hle.trans_lt hlt))
  | none =>
    rw [ha] at hf
    cases hd : f.filingDate with
    | none => exact WithBot.bot_lt_coe s
    | some e =>
      rw [hd, Option.any_some] at hf
      have hle : e ≤ asOf := not_lt.1 (of_decide_eq_false hf)
      exact WithBot.coe_lt_coe.2 (e.startsWithDate.lt hs (hle.trans_lt hlt))

/-- The earlier filings of the symbol, newest first. -/
def InsiderStore.earlierFilings (S : InsiderStore) (symbol : String) (asOf : Date) : List InsiderFiling :=
  (S.filings.rows.filter fun f => f.symbol == symbol && !f.laterThan asOf).insertionSort NewestFirst

theorem filings_sorted_filter (p : InsiderFiling → Bool) :
    ((S.filings.rows.filter (·.symbol == symbol)).insertionSort NewestFirst).filter p =
      (S.filings.rows.filter fun f => f.symbol == symbol && p f).insertionSort NewestFirst := by
  rw [filter_insertionSort newestFirst_total newestFirst_trans, List.filter_filter]
  refine congrArg (List.insertionSort NewestFirst) (List.filter_congr fun f _ => Bool.and_comm _ _)

/-- The later filings come first. -/
theorem latestFilings_eq (S : InsiderStore) (asOf : Date) (limit : ℕ) :
    S.latestFilings symbol limit = (S.laterFilings symbol asOf ++ S.earlierFilings symbol asOf).take limit := by
  have hcloses : Closes (·.laterThan asOf) ((S.filings.rows.filter (·.symbol == symbol)).insertionSort NewestFirst) := by
    have : Std.Total NewestFirst := ⟨newestFirst_total⟩
    have : IsTrans InsiderFiling NewestFirst := ⟨newestFirst_trans⟩
    refine (List.pairwise_insertionSort NewestFirst _).imp fun {f g} hfg hg => ?_
    by_contra hf
    have hlt := stamp_lt (by simpa using hf) hg
    rcases hfg with hc | ⟨hc, -⟩
    · exact lt_asymm hlt hc
    · exact absurd hlt (hc ▸ lt_irrefl _)
  have hsplit := hcloses.filter_append
  rw [filings_sorted_filter, filings_sorted_filter] at hsplit
  rw [InsiderStore.latestFilings, ← hsplit]
  rfl

theorem SamePast.earlierFilings (h : SamePast asOf S T) :
    S.earlierFilings symbol asOf = T.earlierFilings symbol asOf := by
  refine insertionSort_congr newestFirst_total newestFirst_trans (S.filings.nodup.filter _) (T.filings.nodup.filter _)
    (fun f => ?_) fun f hf g hg hfg hgf => ?_
  · rw [List.mem_filter, List.mem_filter]
    refine and_congr_left fun hcond => h.filings f ?_
    rw [Bool.and_eq_true] at hcond
    simpa using hcond.2
  · exact S.filings.eq_of_key (List.mem_of_mem_filter hf) (List.mem_of_mem_filter hg) (newestFirst_antisymm hfg hgf)

theorem SamePast.latestFilings_eq_iff (h : SamePast asOf S T) (limit : ℕ) :
    S.latestFilings symbol limit = T.latestFilings symbol limit ↔
      (S.laterFilings symbol asOf).take limit = (T.laterFilings symbol asOf).take limit := by
  have hlater : ∀ (U : InsiderStore) (f : InsiderFiling), f ∈ U.laterFilings symbol asOf → f.laterThan asOf = true :=
    fun U f hf => by
      have := (List.mem_filter.1 ((List.perm_insertionSort _ _).mem_iff.1 hf)).2
      rw [Bool.and_eq_true] at this
      exact this.2
  rw [latestFilings_eq S asOf, latestFilings_eq T asOf, h.earlierFilings]
  refine take_append_inj (hlater S) (hlater T) (fun f hf => ?_) limit
  have := (List.mem_filter.1 ((List.perm_insertionSort _ _).mem_iff.1 hf)).2
  rw [Bool.and_eq_true] at this
  simpa using this.2

end Queries

/-! ## The activity of two contents with one past -/

/-- The later rows of two contents show the same in an activity. -/
structure SameTail (symbol : String) (asOf : Date) (S T : InsiderStore) : Prop where
  /-- The newest of the later filings. -/
  filings : (S.laterFilings symbol asOf).take latestFilingsLimit = (T.laterFilings symbol asOf).take latestFilingsLimit
  /-- As many undated transactions, which the note counts. -/
  count : (S.undated symbol asOf).length = (T.undated symbol asOf).length
  /-- The same ones in the windows. -/
  recent : ∀ t, isRecent asOf t = true → (t ∈ S.undated symbol asOf ↔ t ∈ T.undated symbol asOf)
  flags : ∀ flag, (∃ t ∈ S.visible symbol asOf, flag ∈ t.dataQualityFlags) ↔
    ∃ t ∈ T.visible symbol asOf, flag ∈ t.dataQualityFlags
  /-- Without filings the first transaction names the issuer. -/
  issuer : (∀ f ∈ S.filings.rows, f.symbol ≠ symbol) →
    firstIssuer (S.visible symbol asOf) = firstIssuer (T.visible symbol asOf)

/-- The windows begin before the first day of the calendar and there is a dated transaction: the subtraction raises. -/
def Overflows (S : InsiderStore) (symbol : String) (asOf : Date) : Prop :=
  asOf.minusDays recentTransactionsWindowDays = none ∧
    ∃ t ∈ S.visible symbol asOf, t.transactionDate.isSome = true

theorem latestFilings_eq_nil_iff {S : InsiderStore} {symbol : String} :
    S.latestFilings symbol latestFilingsLimit = [] ↔ ∀ f ∈ S.filings.rows, f.symbol ≠ symbol := by
  rw [InsiderStore.latestFilings, List.take_eq_nil_iff, or_iff_right (by decide : ¬ latestFilingsLimit = 0),
    ← List.length_eq_zero_iff, List.length_insertionSort, List.length_eq_zero_iff, List.filter_eq_nil_iff]
  simp

/-- Where one of the two selections raises, the other content has another recent row. -/
theorem filter_isRecent_ne {asOf : Date} {txns txns' recent : List InsiderTransaction}
    (h : recentTransactions asOf txns = none) (h' : recentTransactions asOf txns' = some recent) :
    txns.filter (isRecent asOf) ≠ txns'.filter (isRecent asOf) := by
  intro he
  obtain ⟨hminus, t, ht, hdated⟩ := recentTransactions_eq_none_iff.1 h
  have hrecent : isRecent asOf t = true := by
    obtain ⟨d, hd⟩ := Option.isSome_iff_exists.1 hdated
    rw [isRecent, hd, hminus]
    rfl
  have hmem : t ∈ txns'.filter (isRecent asOf) := he ▸ List.mem_filter.2 ⟨ht, hrecent⟩
  have hnone := recentTransactions_eq_none_iff.2 ⟨hminus, t, List.mem_of_mem_filter hmem, hdated⟩
  rw [h'] at hnone
  cases hnone

theorem recentTransactions_eq_iff {asOf : Date} {txns txns' : List InsiderTransaction}
    (h : ¬ (recentTransactions asOf txns = none ∧ recentTransactions asOf txns' = none)) :
    recentTransactions asOf txns = recentTransactions asOf txns' ↔
      txns.filter (isRecent asOf) = txns'.filter (isRecent asOf) := by
  cases hr : recentTransactions asOf txns with
  | none =>
    cases hr' : recentTransactions asOf txns' with
    | none => exact absurd ⟨hr, hr'⟩ h
    | some recent' => exact ⟨nofun, fun he => absurd he (filter_isRecent_ne hr hr')⟩
  | some recent =>
    cases hr' : recentTransactions asOf txns' with
    | none => exact ⟨nofun, fun he => absurd he.symm (filter_isRecent_ne hr' hr)⟩
    | some recent' => rw [← recentTransactions_eq_some hr, ← recentTransactions_eq_some hr', Option.some_inj]

/-- Two contents with one past give one activity just when their later rows show the same in it. -/
theorem activity_same_iff (S T : InsiderStore) (symbol : String) (asOf : Date) (now : Utc) (h : SamePast asOf S T) :
    buildInsiderActivity lib S symbol (some asOf) now = buildInsiderActivity lib T symbol (some asOf) now ↔
      (Overflows S (lib.upper symbol) asOf ∧ Overflows T (lib.upper symbol) asOf) ∨
        SameTail (lib.upper symbol) asOf S T := by
  have hS : buildInsiderActivity lib S symbol (some asOf) now =
      activityFrom lib symbol now asOf (S.latestFilings (lib.upper symbol) latestFilingsLimit)
        (S.visible (lib.upper symbol) asOf) := rfl
  have hT : buildInsiderActivity lib T symbol (some asOf) now =
      activityFrom lib symbol now asOf (T.latestFilings (lib.upper symbol) latestFilingsLimit)
        (T.visible (lib.upper symbol) asOf) := rfl
  rw [hS, hT, activityFrom_eq_iff]
  have hover : (recentTransactions asOf (S.visible (lib.upper symbol) asOf) = none ∧
      recentTransactions asOf (T.visible (lib.upper symbol) asOf) = none) ↔
        Overflows S (lib.upper symbol) asOf ∧ Overflows T (lib.upper symbol) asOf := by
    rw [recentTransactions_eq_none_iff, recentTransactions_eq_none_iff]
    rfl
  rw [← hover]
  refine or_congr_right' fun hnot => ?_
  rw [recentTransactions_eq_iff hnot, h.recent_eq_iff, h.latestFilings_eq_iff, h.length_eq_iff, flagSummary_eq_iff,
    latestFilings_eq_nil_iff]
  exact ⟨fun ⟨hrecent, hfilings, hcount, hflags, hissuer⟩ => ⟨hfilings, hcount, hrecent, hflags, hissuer⟩,
    fun ⟨hfilings, hcount, hrecent, hflags, hissuer⟩ => ⟨hrecent, hfilings, hcount, hflags, hissuer⟩⟩

/-! ### Later rows that show -/

def plainLib : Lib := ⟨fun _ => 0, fun x _ => x, id, fun _ => ""⟩

def midJune : Date := ⟨739782, by decide, by decide⟩

def dayAfter : Date := ⟨739783, by decide, by decide⟩

def nextMorning : Utc := ⟨739782 * 86400000000 + 50400000000, by decide⟩

def bareStore : InsiderStore := ⟨Transact.Table.empty, Transact.Table.empty⟩

def purchase (accepted : Option Utc) : InsiderTransaction :=
  { transactionId := "F4TX:1"
    accession := "0000320193-26-000001"
    issuerCik := "0000320193"
    symbol := "AAPL"
    acceptedAtUtc := accepted
    filingDate := some dayAfter
    transactionDate := some midJune
    classification := .openMarketPurchase }

def nextDaysFiling : InsiderFiling :=
  { insiderFilingId := "0000320193-26-000001"
    accession := "0000320193-26-000001"
    symbol := "AAPL"
    issuerCik := "0000320193"
    acceptedAtUtc := some nextMorning
    ingestedAtUtc := nextMorning }

def laterStore (filings : List InsiderFiling) (hf : (filings.map (·.insiderFilingId)).Nodup) (accepted : Option Utc) :
    InsiderStore :=
  ⟨⟨filings, hf⟩, ⟨[purchase accepted], List.nodup_singleton _⟩⟩

theorem purchase_laterThan (accepted : Option Utc) (h : accepted = none ∨ accepted = some nextMorning) :
    (purchase accepted).laterThan midJune = true := by
  rcases h with rfl | rfl <;> decide

/-- A filing accepted the next morning is listed, and its purchase, which has no acceptance time, is counted. -/
theorem later_rows_shown :
    SamePast midJune bareStore (laterStore [nextDaysFiling] (List.nodup_singleton _) none) ∧
      (buildInsiderActivity plainLib bareStore "AAPL" (some midJune) nextMorning).map
        (fun act => (act.latestFilings.length, act.openMarketAggregates.map (·.transactionCount))) =
          some (0, [0, 0, 0]) ∧
      (buildInsiderActivity plainLib (laterStore [nextDaysFiling] (List.nodup_singleton _) none) "AAPL" (some midJune)
        nextMorning).map
        (fun act => (act.latestFilings.length, act.openMarketAggregates.map (·.transactionCount))) =
          some (1, [1, 1, 1]) := by
  refine ⟨⟨fun f hf => ?_, fun t ht => ?_⟩, by decide +kernel, by decide +kernel⟩
  · refine ⟨fun h => absurd h List.not_mem_nil, fun h => ?_⟩
    obtain rfl := List.mem_singleton.1 h
    exact absurd hf (by decide)
  · refine ⟨fun h => absurd h List.not_mem_nil, fun h => ?_⟩
    obtain rfl := List.mem_singleton.1 h
    exact absurd ht (by decide)

/-- A purchase accepted the next morning is not shown. -/
theorem activity_same_sample :
    buildInsiderActivity plainLib bareStore "AAPL" (some midJune) nextMorning =
      buildInsiderActivity plainLib (laterStore [] List.nodup_nil (some nextMorning)) "AAPL" (some midJune)
        nextMorning := by
  have hvisible : (laterStore [] List.nodup_nil (some nextMorning)).visible "AAPL" midJune = [] := by
    refine List.eq_nil_iff_forall_not_mem.2 fun t ht => ?_
    obtain ⟨hmem, hcond⟩ := mem_visible.1 ht
    obtain rfl := List.mem_singleton.1 hmem
    rw [acceptedBy_lastSecond (purchase_laterThan _ (Or.inr rfl))] at hcond
    exact absurd hcond (by decide)
  have hpast : SamePast midJune bareStore (laterStore [] List.nodup_nil (some nextMorning)) := by
    refine ⟨fun f _ => Iff.rfl, fun t ht => ?_⟩
    refine ⟨fun h => absurd h List.not_mem_nil, fun h => ?_⟩
    obtain rfl := List.mem_singleton.1 h
    exact absurd ht (by rw [purchase_laterThan _ (Or.inr rfl)]; decide)
  refine (activity_same_iff plainLib _ _ "AAPL" midJune nextMorning hpast).2
    (Or.inr ⟨rfl, rfl, fun t _ => Iff.rfl, fun flag => ?_, fun _ => ?_⟩)
  · exact iff_of_eq (congrArg (fun l : List InsiderTransaction => ∃ t ∈ l, flag ∈ t.dataQualityFlags) hvisible.symm)
  · exact congrArg firstIssuer hvisible.symm

end TalonX.Insider
