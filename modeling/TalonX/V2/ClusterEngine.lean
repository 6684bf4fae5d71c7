import Mathlib.Algebra.Order.Field.Rat
import Mathlib.Algebra.Order.Floor.Ring
import Mathlib.Data.List.Sort
import Mathlib.Data.Rat.Floor
import TalonX.V2.Schemas

/-!
# The insider buy-cluster detector

`detect_episodes` over the records of one source read: filter and de-duplicate, order by filing date, then scan greedily
for windows with enough distinct owners. A calendar lookup that raises makes the whole detection raise (`none`).

- `scan`: the greedy, non-overlapping loop of one issuer;
- `detectEpisodes`: all issuers, ordered by eligible entry session and symbol;
- `detectEpisodes_spec`: no episode id is detected twice, and the id determines the entry session.
-/

set_option autoImplicit false

namespace TalonX.V2

/-- One open-market purchase line. -/
structure PurchaseRecord where
  symbol : Symbol
  issuerCik : String
  ownerCik : String
  filingDate : Date
  accession : String
  transactionDate : Option Date
  transactionValue : Option ℚ
  isOfficer : Bool
  isDirector : Bool
  isTenPercent : Bool
  transactionCode : String
  deriving DecidableEq

structure ClusterEpisode where
  episodeId : EpisodeId
  symbol : Symbol
  issuerCik : String
  distinctOwnerCiks : List String
  nFilings : ℕ
  firstFilingDate : Date
  activationFilingDate : Date
  lastFilingDate : Date
  aggregatePurchaseValue : ℚ
  anyOfficer : Bool
  anyDirector : Bool
  anyTenPercent : Bool
  eligibleEntrySession : Date
  deriving DecidableEq

/-- The entry session is the first one after the activating filing, so the id determines it. -/
def ClusterEpisode.EntersNext (cal : Calendar) (e : ClusterEpisode) : Prop :=
  cal.nextSessionStrictlyAfter e.episodeId.activationFiling = some e.eligibleEntrySession

theorem ClusterEpisode.EntersNext.mem_sessions {cal : Calendar} {e : ClusterEpisode} (h : e.EntersNext cal) :
    e.eligibleEntrySession ∈ cal.sessions := List.mem_of_find?_eq_some h

/-! ## Records -/

/-- Python's `round(x, 2)`: the nearest hundredth, ties to the even one. -/
def round2 (x : ℚ) : ℚ :=
  let f := ⌊x * 100⌋
  let r := x * 100 - f
  let n := if r < 1 / 2 then f else if 1 / 2 < r then f + 1 else if f % 2 = 0 then f else f + 1
  (n : ℚ) / 100

def PurchaseRecord.dedupeKey (r : PurchaseRecord) : String × String × Option Date × ℚ :=
  (r.accession, r.ownerCik, r.transactionDate, round2 (r.transactionValue.getD 0))

/-- `dict.fromkeys`: the first occurrence of every key. -/
def firstOccurrences {α κ : Type} [DecidableEq κ] (key : α → κ) : List α → List α
  | [] => []
  | x :: xs => x :: (firstOccurrences key xs).filter fun y => key y ≠ key x

/-- `_dedupe`: sorted by filing date, owner and accession, then the first record of every key. -/
def dedupe (records : List PurchaseRecord) : List PurchaseRecord :=
  firstOccurrences PurchaseRecord.dedupeKey (records.insertionSort fun a b =>
    a.filingDate < b.filingDate ∨ (a.filingDate = b.filingDate ∧
      (a.ownerCik < b.ownerCik ∨ (a.ownerCik = b.ownerCik ∧ a.accession ≤ b.accession))))

/-- `recs.sort(key=lambda r: (r.filing_date, r.owner_cik))`. -/
def sortByFiling : List PurchaseRecord → List PurchaseRecord := orderByDateText fun r => (r.filingDate, r.ownerCik)

/-! ## One issuer -/

/-- The distinct owners of a window, in order of appearance. -/
def distinctOwners (window : List PurchaseRecord) : List String :=
  firstOccurrences id (window.map PurchaseRecord.ownerCik)

/-- The filing date at which the `n`-th distinct owner appears, `last` when there is none. -/
def activationDate (n : ℕ) (last : Date) : List String → List PurchaseRecord → Date
  | _, [] => last
  | seen, r :: rs =>
    if r.ownerCik ∈ seen then activationDate n last seen rs
    else if seen.length + 1 = n then r.filingDate
    else activationDate n last (seen ++ [r.ownerCik]) rs

/-- The episode of a window that starts with `r`; raises when no session follows the activation. -/
def buildEpisode (cal : Calendar) (cfg : V2Config) (r : PurchaseRecord) (rest : List PurchaseRecord) :
    Option ClusterEpisode :=
  let window := r :: rest
  let last := (window.getLast (by simp [window])).filingDate
  let activation := activationDate cfg.minDistinctOwners last [] window
  let qualifying := window.filter (·.filingDate ≤ activation)
  let owners := distinctOwners qualifying
  let values := (qualifying.map fun q => q.transactionValue.getD 0).filter (0 < ·)
  (cal.nextSessionStrictlyAfter activation).map fun entry =>
    { episodeId := ⟨r.symbol.toUpper, owners.insertionSort (· ≤ ·), r.filingDate, activation⟩
      symbol := r.symbol.toUpper
      issuerCik := r.issuerCik
      distinctOwnerCiks := owners
      nFilings := qualifying.length
      firstFilingDate := r.filingDate
      activationFilingDate := activation
      lastFilingDate := (qualifying.getLast?.map PurchaseRecord.filingDate).getD last
      aggregatePurchaseValue := round2 values.sum
      anyOfficer := qualifying.any (·.isOfficer)
      anyDirector := qualifying.any (·.isDirector)
      anyTenPercent := qualifying.any (·.isTenPercent)
      eligibleEntrySession := entry }

/-- The greedy loop over records with their session ordinals; the fuel is the number of records left. -/
def scan (cal : Calendar) (cfg : V2Config) : ℕ → List (PurchaseRecord × ℕ) → Option (List ClusterEpisode)
  | 0, _ => some []
  | _ + 1, [] => some []
  | fuel + 1, (r, ord) :: rest =>
    let inWindow : PurchaseRecord × ℕ → Bool := fun x => x.2 ≤ ord + cfg.clusterWindowTradingDays
    let window := (rest.takeWhile inWindow).map Prod.fst
    if cfg.minDistinctOwners ≤ (distinctOwners (r :: window)).length then
      match buildEpisode cal cfg r window with
      | none => none
      | some ep => (scan cal cfg fuel (rest.dropWhile inWindow)).map (ep :: ·)
    else scan cal cfg fuel rest

def detectEpisodesForIssuer (cal : Calendar) (cfg : V2Config) (records : List PurchaseRecord) :
    Option (List ClusterEpisode) :=
  let recs := dedupe (records.filter fun r => r.transactionCode.toUpper = cfg.transactionCode && r.ownerCik ≠ "")
  if recs.length < cfg.minDistinctOwners then some []
  else
    let recs := sortByFiling recs
    match recs.mapM fun r => (cal.sessionOrdinal r.filingDate true).map fun ord => (r, ord) with
    | none => none
    | some withOrds => scan cal cfg withOrds.length withOrds

/-! ## All issuers -/

/-- The issuers of the records, in ascending order. -/
def issuers (records : List PurchaseRecord) : List Symbol :=
  (firstOccurrences id (records.map fun r => r.symbol.toUpper)).insertionSort (· ≤ ·)

def detectEpisodes (cal : Calendar) (cfg : V2Config) (records : List PurchaseRecord) : Option (List ClusterEpisode) :=
  ((issuers records).mapM fun sym =>
    detectEpisodesForIssuer cal cfg (records.filter fun r => r.symbol.toUpper = sym)).map fun eps =>
      orderByDateText (fun e => (e.eligibleEntrySession, e.symbol)) eps.flatten

/-! ## No episode id is detected twice -/

theorem mem_of_mem_firstOccurrences {α κ : Type} [DecidableEq κ] {key : α → κ} {xs : List α} {x : α}
    (h : x ∈ firstOccurrences key xs) : x ∈ xs := by
  induction xs with
  | nil => cases h
  | cons y ys ih =>
    rcases List.mem_cons.1 h with rfl | h
    · exact List.mem_cons_self
    · exact List.mem_cons_of_mem _ (ih (List.mem_filter.1 h).1)

theorem nodup_firstOccurrences {α κ : Type} [DecidableEq κ] (key : α → κ) (xs : List α) :
    ((firstOccurrences key xs).map key).Nodup := by
  induction xs with
  | nil => exact List.nodup_nil
  | cons x xs ih =>
    refine List.nodup_cons.2 ⟨?_, (List.filter_sublist.map key).nodup ih⟩
    intro hm
    obtain ⟨y, hy, he⟩ := List.mem_map.1 hm
    exact (by simpa using (List.mem_filter.1 hy).2 : key y ≠ key x) he

theorem exists_firstOccurrences {α κ : Type} [DecidableEq κ] {key : α → κ} {xs : List α} {x : α} (h : x ∈ xs) :
    ∃ y ∈ firstOccurrences key xs, key y = key x := by
  induction xs with
  | nil => cases h
  | cons z zs ih =>
    by_cases hz : key x = key z
    · exact ⟨z, List.mem_cons_self, hz.symm⟩
    · rcases List.mem_cons.1 h with rfl | h
      · exact absurd rfl hz
      · obtain ⟨y, hy, hyx⟩ := ih h
        exact ⟨y, List.mem_cons_of_mem _ (List.mem_filter.2 ⟨hy, by simpa [hyx] using hz⟩), hyx⟩

/-- A computation paired with its argument, over a list. -/
theorem mapM_pair_spec {α β : Type} {f : α → Option β} : ∀ {xs : List α} {ys : List (α × β)},
    xs.mapM (fun x => (f x).map fun y => (x, y)) = some ys → ys.map Prod.fst = xs ∧ ∀ y ∈ ys, f y.1 = some y.2
  | [], ys, h => by
    obtain rfl : [] = ys := by simpa using h
    simp
  | x :: xs, ys, h => by
    rw [List.mapM_cons] at h
    obtain ⟨p, hp, h⟩ := Option.bind_eq_some_iff.1 h
    obtain ⟨zs, hzs, h⟩ := Option.bind_eq_some_iff.1 h
    obtain rfl := Option.some.inj h
    obtain ⟨y, hy, rfl⟩ := Option.map_eq_some_iff.1 hp
    obtain ⟨hfst, hall⟩ := mapM_pair_spec hzs
    exact ⟨by rw [List.map_cons, hfst], by simpa using ⟨hy, fun a b hab => hall (a, b) hab⟩⟩

/-- The id of an episode names its issuer and the filing date its window starts with. -/
theorem buildEpisode_spec {cal : Calendar} {cfg : V2Config} {r : PurchaseRecord} {rest : List PurchaseRecord}
    {ep : ClusterEpisode} (h : buildEpisode cal cfg r rest = some ep) :
    ep.episodeId.symbol = r.symbol.toUpper ∧ ep.episodeId.firstFiling = r.filingDate ∧
      ep.symbol = r.symbol.toUpper ∧
        ep.EntersNext cal := by
  unfold buildEpisode at h
  obtain ⟨entry, hentry, rfl⟩ := Option.map_eq_some_iff.1 h
  exact ⟨rfl, rfl, rfl, hentry⟩

/-- The greedy scan consumes a whole window at a time, so the windows it keeps start on ascending dates. -/
theorem scan_spec {cal : Calendar} {cfg : V2Config} {ord : Date → ℕ} : ∀ {fuel : ℕ}
    {xs : List (PurchaseRecord × ℕ)} {eps : List ClusterEpisode}, scan cal cfg fuel xs = some eps →
      xs.Pairwise (fun x y => x.1.filingDate ≤ y.1.filingDate) → (∀ x ∈ xs, x.2 = ord x.1.filingDate) →
        eps.Pairwise (fun e e' => e.episodeId.firstFiling < e'.episodeId.firstFiling) ∧
          ∀ e ∈ eps, ∃ x ∈ xs, e.episodeId.firstFiling = x.1.filingDate ∧
            e.episodeId.symbol = x.1.symbol.toUpper ∧ e.symbol = x.1.symbol.toUpper ∧
            e.EntersNext cal
  | 0, xs, eps, h, _, _ => by
    obtain rfl := Option.some.inj h
    simp
  | _ + 1, [], eps, h, _, _ => by
    obtain rfl := Option.some.inj h
    simp
  | fuel + 1, (r, o) :: rest, eps, h, hs, ho => by
    obtain ⟨hle, hs⟩ := List.pairwise_cons.1 hs
    have ho' : ∀ x ∈ rest, x.2 = ord x.1.filingDate := fun x hx => ho x (List.mem_cons_of_mem _ hx)
    simp only [scan] at h
    split at h
    · split at h
      · cases h
      rename_i ep hep
      obtain ⟨eps', heps', rfl⟩ := Option.map_eq_some_iff.1 h
      have hsub := List.dropWhile_sublist (l := rest)
        fun x : PurchaseRecord × ℕ => decide (x.2 ≤ o + cfg.clusterWindowTradingDays)
      obtain ⟨hpair, hmem⟩ := scan_spec heps' (hs.sublist hsub) fun x hx => ho' x (hsub.subset hx)
      obtain ⟨hsym, hfirst, hsym', hsess⟩ := buildEpisode_spec hep
      refine ⟨List.pairwise_cons.2 ⟨fun e he => ?_, hpair⟩, fun e he => ?_⟩
      · obtain ⟨x, hx, hxd, -, -⟩ := hmem e he
        rw [hfirst, hxd]
        refine lt_of_le_of_ne (hle x (hsub.subset hx)) fun heq => ?_
        -- the first record behind the window has a later ordinal, hence a later date, and `x` is not before it
        cases hd : rest.dropWhile fun x => decide (x.2 ≤ o + cfg.clusterWindowTradingDays) with
        | nil => rw [hd] at hx; cases hx
        | cons y ys =>
          have hy : y ∈ rest := hsub.subset (hd ▸ List.mem_cons_self)
          have hyx : y.1.filingDate ≤ x.1.filingDate := by
            rw [hd] at hx
            rcases List.mem_cons.1 hx with rfl | hx
            · exact le_refl _
            · exact (List.pairwise_cons.1 (hd ▸ hs.sublist hsub)).1 x hx
          have hyr : y.1.filingDate = r.filingDate := le_antisymm (heq ▸ hyx) (hle y hy)
          have hyo : y.2 = o := by rw [ho' y hy, hyr, ← ho (r, o) List.mem_cons_self]
          have hfalse := List.head?_dropWhile_not
            (fun x : PurchaseRecord × ℕ => decide (x.2 ≤ o + cfg.clusterWindowTradingDays)) rest
          rw [hd] at hfalse
          simp [hyo] at hfalse
      · rcases List.mem_cons.1 he with rfl | he
        · exact ⟨(r, o), List.mem_cons_self, hfirst, hsym, hsym', hsess⟩
        · obtain ⟨x, hx, h⟩ := hmem e he
          exact ⟨x, List.mem_cons_of_mem _ (hsub.subset hx), h⟩
    · obtain ⟨hpair, hmem⟩ := scan_spec h hs ho'
      refine ⟨hpair, fun e he => ?_⟩
      obtain ⟨x, hx, h⟩ := hmem e he
      exact ⟨x, List.mem_cons_of_mem _ hx, h⟩

/-- What the episodes of one issuer share. -/
theorem detectEpisodesForIssuer_spec {cal : Calendar} {cfg : V2Config} {records : List PurchaseRecord} {sym : Symbol}
    {eps : List ClusterEpisode} (hsym : ∀ r ∈ records, r.symbol.toUpper = sym)
    (h : detectEpisodesForIssuer cal cfg records = some eps) :
    eps.Pairwise (fun e e' => e.episodeId.firstFiling < e'.episodeId.firstFiling) ∧
      ∀ e ∈ eps, e.episodeId.symbol = sym ∧ e.symbol = sym ∧ e.EntersNext cal := by
  unfold detectEpisodesForIssuer at h
  dsimp only at h
  split at h
  · obtain rfl := Option.some.inj h
    simp
  split at h
  · cases h
  rename_i xs hxs
  obtain ⟨hfst, hord⟩ := mapM_pair_spec hxs
  have hsorted : xs.Pairwise fun x y => x.1.filingDate ≤ y.1.filingDate := by
    have := pairwise_orderByDateText (fun r : PurchaseRecord => (r.filingDate, r.ownerCik))
      (dedupe (records.filter fun r => r.transactionCode.toUpper = cfg.transactionCode && r.ownerCik ≠ ""))
    rw [← sortByFiling, ← hfst, List.pairwise_map] at this
    exact this
  let ord : Date → ℕ := fun d => (cal.sessionOrdinal d true).getD 0
  have hord' : ∀ x ∈ xs, x.2 = ord x.1.filingDate := fun x hx => by
    simp only [ord, hord x hx, Option.getD_some]
  obtain ⟨hpair, hmem⟩ := scan_spec h hsorted hord'
  refine ⟨hpair, fun e he => ?_⟩
  obtain ⟨x, hx, -, hes, hes', hsess⟩ := hmem e he
  have hrec : x.1 ∈ records := by
    have hx' : x.1 ∈ sortByFiling (dedupe _) := hfst ▸ List.mem_map_of_mem hx
    rw [sortByFiling, mem_orderByDateText] at hx'
    exact (List.mem_filter.1 ((List.mem_insertionSort _).1 (mem_of_mem_firstOccurrences hx'))).1
  rw [hes, hes', hsym _ hrec]
  exact ⟨rfl, rfl, hsess⟩

/-- Groups with disjoint issuers: the ids of all of them are distinct. -/
theorem flatten_mapM_spec {cal : Calendar} {f : Symbol → Option (List ClusterEpisode)}
    (hf : ∀ sym eps, f sym = some eps →
      eps.Pairwise (fun e e' => e.episodeId.firstFiling < e'.episodeId.firstFiling) ∧
        ∀ e ∈ eps, e.episodeId.symbol = sym ∧ e.symbol = sym ∧ e.EntersNext cal) :
    ∀ {syms : List Symbol} {groups : List (List ClusterEpisode)}, syms.Nodup → syms.mapM f = some groups →
      (groups.flatten.map ClusterEpisode.episodeId).Nodup ∧ ∀ e ∈ groups.flatten,
        e.episodeId.symbol ∈ syms ∧ e.symbol = e.episodeId.symbol ∧ e.EntersNext cal
  | [], groups, _, h => by
    obtain rfl : [] = groups := by simpa using h
    simp
  | sym :: syms, groups, hn, h => by
    rw [List.mapM_cons] at h
    obtain ⟨eps, heps, h⟩ := Option.bind_eq_some_iff.1 h
    obtain ⟨rest, hrest, h⟩ := Option.bind_eq_some_iff.1 h
    obtain rfl := Option.some.inj h
    obtain ⟨hpair, hmem⟩ := hf sym eps heps
    obtain ⟨hnot, hn⟩ := List.nodup_cons.1 hn
    obtain ⟨hnodup, hall⟩ := flatten_mapM_spec hf hn hrest
    rw [List.flatten_cons, List.map_append]
    refine ⟨List.nodup_append.2 ⟨?_, hnodup, ?_⟩, fun e he => ?_⟩
    · exact List.pairwise_map.2 (hpair.imp fun hlt heq => absurd (congrArg EpisodeId.firstFiling heq) hlt.ne)
    · intro a ha b hb hab
      obtain ⟨e, he, rfl⟩ := List.mem_map.1 ha
      obtain ⟨e', he', rfl⟩ := List.mem_map.1 hb
      exact hnot ((hmem e he).1 ▸ hab ▸ (hall e' he').1)
    · rcases List.mem_append.1 he with he | he
      · obtain ⟨h1, h2, h3⟩ := hmem e he
        exact ⟨h1 ▸ List.mem_cons_self, h2.trans h1.symm, h3⟩
      · obtain ⟨h1, h2⟩ := hall e he
        exact ⟨List.mem_cons_of_mem _ h1, h2⟩

/-- No episode is detected twice in one pass, and its id determines its symbol and its entry session. -/
theorem detectEpisodes_spec {cal : Calendar} {cfg : V2Config} {records : List PurchaseRecord}
    {eps : List ClusterEpisode} (h : detectEpisodes cal cfg records = some eps) :
    (eps.map ClusterEpisode.episodeId).Nodup ∧
      ∀ e ∈ eps, e.symbol = e.episodeId.symbol ∧ e.EntersNext cal := by
  obtain ⟨groups, hgroups, rfl⟩ := Option.map_eq_some_iff.1 h
  have hissuers : (issuers records).Nodup := by
    refine (List.perm_insertionSort _ _).nodup_iff.2 ?_
    have := nodup_firstOccurrences id (records.map fun r => r.symbol.toUpper)
    rwa [List.map_id] at this
  obtain ⟨hn, hall⟩ := flatten_mapM_spec (fun sym eps heps => detectEpisodesForIssuer_spec
    (fun r hr => by simpa using (List.mem_filter.1 hr).2) heps) hissuers hgroups
  have hperm : (orderByDateText (fun e : ClusterEpisode => (e.eligibleEntrySession, e.symbol)) groups.flatten).Perm
      groups.flatten := List.perm_insertionSort _ _
  exact ⟨(hperm.map _).nodup_iff.2 hn, fun e he => (hall e (hperm.mem_iff.1 he)).2⟩

end TalonX.V2
