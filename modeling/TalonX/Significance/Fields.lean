import Mathlib
import TalonX.Significance.Engine

/-!
# What the fingerprint keeps of its inputs

The fingerprint joins texts without escaping them. Where two joins are not mixed up, the fields can be read back.

- `eventFields`, `comparisonFields`, `insiderFields` and the fields of their rows: what is joined;
- `Unmixed`, `Readable`: no two different lists of fields give one text;
- `SameText`: what equal fingerprints say about two inputs; `sameText_of_fingerprint`.
-/

set_option autoImplicit false

namespace TalonX.Significance

open Clock
open TalonX.Core (PyFloat)
open TalonX.Insider (InsiderActivity InsiderCluster RollingOpenMarketAggregate)

variable (lib : Lib)

/-! ## Fields -/

def eventFields (e : TextEvent) : List String :=
  ["event", e.eventId, e.eventType.value, e.formType, join "," e.filingItems,
    (e.acceptedAtUtc.map Utc.isoformat).getD "", orEmpty e.sourceHash, join "," (sortedFlags e.dataQualityFlags),
    if e.isAmendment then "AMEND" else "ORIG"]

def wholeFields : Option WholeDocumentChange → List String
  | none => [""]
  | some w => ["whole", lib.roundText w.diffRatio 6, bit w.exceedsMaterialThreshold]

def sectionFields (s : SectionChange) : List String :=
  [s.sectionType.value, s.status.value, roundedOrEmpty lib s.diffRatio 6]

def xbrlFields (x : XbrlChange) : List String :=
  [x.field, x.comparison.value, roundedOrEmpty lib x.relativeDelta 6, x.status]

def keywordFields (s : KeywordCategorySummary) : List String := [s.category.value, toString s.totalDelta]

def comparisonFields : Option FilingComparison → List String
  | none => ["comparison=NONE"]
  | some c =>
    ["comparison", c.comparisonId, orEmpty c.currentDocumentHash, orEmpty c.priorDocumentHash,
      join ":" (wholeFields lib c.wholeDocumentChange),
      join "&" (c.sectionChanges.map fun s => join ":" (sectionFields lib s)),
      join "&" (c.xbrlChanges.map fun x => join ":" (xbrlFields lib x)),
      join "&" (c.keywordCategorySummaries.map fun s => join ":" (keywordFields s)),
      toString c.newPassages.length, join "," (sortedFlags c.dataQualityFlags)]

def aggregateFields (g : RollingOpenMarketAggregate) : List String :=
  [toString g.windowCalendarDays, toString g.transactionCount, roundedOrEmpty lib g.largestSingleTransactionValue 2,
    toString g.distinctPurchasers, toString g.distinctSellers]

def clusterFields (c : InsiderCluster) : List String := [clusterKindText c.kind, toString c.distinctOwners]

def insiderFields : Option InsiderActivity → List String
  | none => ["insider=NONE"]
  | some a =>
    ["insider", a.symbol, a.asOfDate.isoformat,
      join "&" (a.openMarketAggregates.map fun g => join ":" (aggregateFields lib g)),
      join "&" (a.clusters.map fun c => join ":" (clusterFields c)),
      join "," (sortedFlags (a.transactions.map (·.transactionId))), join "," (sortedFlags a.dataQualityFlags)]

theorem eventPart_eq (e : TextEvent) : eventPart e = join "|" (eventFields e) := rfl

theorem comparisonPart_eq (c : Option FilingComparison) : comparisonPart lib c = join "|" (comparisonFields lib c) := by
  cases c with
  | none => rfl
  | some c => cases hw : c.wholeDocumentChange <;> simp only [comparisonPart, comparisonFields, hw] <;> rfl

theorem insiderPart_eq (a : Option InsiderActivity) : insiderPart lib a = join "|" (insiderFields lib a) := by
  cases a <;> rfl

/-! ## Reading the fields back -/

/-- A text that both lists are joined to is joined from one list. -/
def Unmixed (sep : String) (xs ys : List String) : Prop := join sep xs = join sep ys → xs = ys

instance (sep : String) (xs ys : List String) : Decidable (Unmixed sep xs ys) :=
  inferInstanceAs (Decidable (_ → _))

/-- Rows of two lists that are joined within and between the rows. -/
structure UnmixedRows {α : Type} (fields : α → List String) (l l' : List α) : Prop where
  rows : Unmixed "&" (l.map fun a => join ":" (fields a)) (l'.map fun a => join ":" (fields a))
  row : ∀ a ∈ l, ∀ b ∈ l', Unmixed ":" (fields a) (fields b)

structure ReadableComparison (c c' : FilingComparison) : Prop where
  whole : Unmixed ":" (wholeFields lib c.wholeDocumentChange) (wholeFields lib c'.wholeDocumentChange)
  sections : UnmixedRows (sectionFields lib) c.sectionChanges c'.sectionChanges
  xbrl : UnmixedRows (xbrlFields lib) c.xbrlChanges c'.xbrlChanges
  keywords : UnmixedRows keywordFields c.keywordCategorySummaries c'.keywordCategorySummaries
  flags : Unmixed "," (sortedFlags c.dataQualityFlags) (sortedFlags c'.dataQualityFlags)

structure ReadableActivity (a a' : InsiderActivity) : Prop where
  aggregates : UnmixedRows (aggregateFields lib) a.openMarketAggregates a'.openMarketAggregates
  clusters : UnmixedRows clusterFields a.clusters a'.clusters
  flags : Unmixed "," (sortedFlags a.dataQualityFlags) (sortedFlags a'.dataQualityFlags)

/-- The two inputs are not mixed up by a separator inside a field. -/
structure Readable (x y : Inputs) : Prop where
  event : Unmixed "|" (eventFields x.event) (eventFields y.event)
  items : Unmixed "," x.event.filingItems y.event.filingItems
  flags : Unmixed "," (sortedFlags x.event.dataQualityFlags) (sortedFlags y.event.dataQualityFlags)
  comparison : Unmixed "|" (comparisonFields lib x.comparison) (comparisonFields lib y.comparison)
  comparisons : ∀ c ∈ x.comparison, ∀ c' ∈ y.comparison, ReadableComparison lib c c'
  insider : Unmixed "|" (insiderFields lib x.insiderActivity) (insiderFields lib y.insiderActivity)
  activities : ∀ a ∈ x.insiderActivity, ∀ a' ∈ y.insiderActivity, ReadableActivity lib a a'

/-! ## The same text -/

structure SameComparison (c c' : FilingComparison) : Prop where
  whole : Option.Rel (fun w w' => lib.roundText w.diffRatio 6 = lib.roundText w'.diffRatio 6) c.wholeDocumentChange
    c'.wholeDocumentChange
  sections : List.Forall₂ (fun s s' => s.sectionType = s'.sectionType ∧ s.status = s'.status ∧
    roundedOrEmpty lib s.diffRatio 6 = roundedOrEmpty lib s'.diffRatio 6) c.sectionChanges c'.sectionChanges
  xbrl : List.Forall₂ (fun r r' => r.field = r'.field ∧ r.status = r'.status ∧
    roundedOrEmpty lib r.relativeDelta 6 = roundedOrEmpty lib r'.relativeDelta 6) c.xbrlChanges c'.xbrlChanges
  keywords : List.Forall₂ (fun s s' => s.category = s'.category ∧ s.totalDelta = s'.totalDelta)
    c.keywordCategorySummaries c'.keywordCategorySummaries
  flags : c.dataQualityFlags.Perm c'.dataQualityFlags

structure SameActivity (a a' : InsiderActivity) : Prop where
  aggregates : List.Forall₂ (fun g g' => g.transactionCount = g'.transactionCount ∧
    roundedOrEmpty lib g.largestSingleTransactionValue 2 = roundedOrEmpty lib g'.largestSingleTransactionValue 2)
      a.openMarketAggregates a'.openMarketAggregates
  clusters : a.clusters.length = a'.clusters.length
  flags : a.dataQualityFlags.Perm a'.dataQualityFlags

structure SameText (x y : Inputs) : Prop where
  eventType : x.event.eventType = y.event.eventType
  items : x.event.filingItems = y.event.filingItems
  accepted : x.event.acceptedAtUtc = y.event.acceptedAtUtc
  amendment : x.event.isAmendment = y.event.isAmendment
  flags : x.event.dataQualityFlags.Perm y.event.dataQualityFlags
  comparison : Option.Rel (SameComparison lib) x.comparison y.comparison
  insider : Option.Rel (SameActivity lib) x.insiderActivity y.insiderActivity
  onWatchlist : x.onWatchlist = y.onWatchlist
  pinned : x.pinned = y.pinned
  simultaneous : x.simultaneousTypeCount = y.simultaneousTypeCount
  source : statusText x.sourceStatus = statusText y.sourceStatus

theorem eventType_value_inj {a b : EventType} (h : a.value = b.value) : a = b := by
  cases a <;> cases b <;> first | rfl | (revert h; decide)

theorem sectionType_value_inj {a b : SectionType} (h : a.value = b.value) : a = b := by
  cases a <;> cases b <;> first | rfl | (revert h; decide)

theorem sectionStatus_value_inj {a b : SectionStatus} (h : a.value = b.value) : a = b := by
  cases a <;> cases b <;> first | rfl | (revert h; decide)

theorem keywordCategory_value_inj {a b : KeywordCategory} (h : a.value = b.value) : a = b := by
  cases a <;> cases b <;> first | rfl | (revert h; decide)

theorem bit_inj {a b : Bool} (h : bit a = bit b) : a = b := by
  cases a <;> cases b <;> first | rfl | (revert h; decide)

theorem isoformat_inj {s t : Utc} (h : s.isoformat = t.isoformat) : s = t := by
  -- the texts are ordered as the times are
  have hst : s.micros ≤ t.micros := Utc.isoformat_le_iff.1 (le_of_eq h)
  have hts : t.micros ≤ s.micros := Utc.isoformat_le_iff.1 (le_of_eq h.symm)
  obtain ⟨a, ha⟩ := s
  obtain ⟨b, hb⟩ := t
  obtain rfl : a = b := le_antisymm hst hts
  rfl

theorem isoformat_getD_inj {a b : Option Utc} (h : (a.map Utc.isoformat).getD "" = (b.map Utc.isoformat).getD "") :
    a = b := by
  cases a with
  | none =>
    cases b with
    | none => rfl
    | some t => exact absurd h.symm t.isoformat_ne_empty
  | some s =>
    cases b with
    | none => exact absurd h s.isoformat_ne_empty
    | some t => rw [isoformat_inj h]

theorem perm_of_sortedFlags {l l' : List String} (h : sortedFlags l = sortedFlags l') : l.Perm l' := by
  have hl : (sortedFlags l).Perm l := List.perm_insertionSort _ l
  have hl' : (sortedFlags l').Perm l' := List.perm_insertionSort _ l'
  exact hl.symm.trans (h ▸ hl')

/-- Texts around the first of a character. -/
theorem split_at_char {c : Char} {l l' r r' : List Char} (hl : c ∉ l) (hl' : c ∉ l')
    (h : l ++ c :: r = l' ++ c :: r') : l = l' ∧ r = r' := by
  induction l generalizing l' with
  | nil =>
    cases l' with
    | nil => exact ⟨rfl, (List.cons.inj h).2⟩
    | cons d l' => exact absurd ((List.cons.inj h).1 ▸ List.mem_cons_self) hl'
  | cons a l ih =>
    cases l' with
    | nil => exact absurd ((List.cons.inj h).1 ▸ List.mem_cons_self) hl
    | cons d l' =>
      obtain ⟨rfl, hrest⟩ := List.cons.inj h
      obtain ⟨rfl, hr⟩ := ih (fun hc => hl (List.mem_cons_of_mem _ hc)) (fun hc => hl' (List.mem_cons_of_mem _ hc))
        hrest
      exact ⟨rfl, hr⟩

theorem colon_notMem_repr (n : ℕ) : ':' ∉ n.repr.toList := by
  intro h
  rw [Nat.repr, String.toList_ofList] at h
  exact absurd (Nat.isDigit_of_mem_toDigits (by decide) (by decide) h) (by decide)

theorem colon_notMem_toString (n : ℤ) : ':' ∉ (toString n).toList := by
  cases n with
  | ofNat m => exact colon_notMem_repr m
  | negSucc m =>
    intro h
    have h : ':' ∈ ("-" ++ (m + 1).repr).toList := h
    rw [String.toList_append, List.mem_append] at h
    rcases h with h | h
    · exact absurd h (by decide)
    · exact colon_notMem_repr _ h

/-- `rarity_result.code`, or a text for none. -/
def rarityText (r : Option RarityResult) : String := (r.map (·.code.value)).getD "NA"

theorem colon_notMem_rarityText (r : Option RarityResult) : ':' ∉ (rarityText r).toList := by
  cases r with
  | none => decide
  | some r =>
    have hvalue : ∀ code : RarityCode, ':' ∉ code.value.toList := fun code => by cases code <;> decide
    exact hvalue r.code

theorem contextPart_inj {n n' : ℤ} {r r' : Option RarityResult} {s s' : String}
    (h : contextPart n (rarityText r) s = contextPart n' (rarityText r') s') : n = n' ∧ s = s' := by
  have htext : ∀ (n : ℤ) (r s : String), (contextPart n r s).toList =
      "context:sim=".toList ++ ((toString n).toList ++
        ':' :: ("rarity=".toList ++ (r.toList ++ ':' :: ("src=".toList ++ s.toList)))) :=
    fun n r s => by
      unfold contextPart
      repeat rw [String.toList_append]
      repeat rw [List.append_assoc]
      rfl
  have h := congrArg String.toList h
  rw [htext, htext] at h
  obtain ⟨hn, h⟩ := split_at_char (colon_notMem_toString n) (colon_notMem_toString n') (List.append_cancel_left h)
  obtain ⟨-, h⟩ :=
    split_at_char (colon_notMem_rarityText r) (colon_notMem_rarityText r') (List.append_cancel_left h)
  exact ⟨Int.repr_injective (String.toList_inj.1 hn), String.toList_inj.1 (List.append_cancel_left h)⟩

theorem watchlistPart_inj {a b a' b' : Bool} (h : watchlistPart a b = watchlistPart a' b') : a = a' ∧ b = b' := by
  cases a <;> cases b <;> cases a' <;> cases b' <;> first | exact ⟨rfl, rfl⟩ | (revert h; decide)

theorem forall₂_of_map_eq {α β γ : Type} {f : α → γ} {g : β → γ} {R : α → β → Prop} {l : List α} {l' : List β}
    (h : l.map f = l'.map g) (hr : ∀ a ∈ l, ∀ b ∈ l', f a = g b → R a b) : List.Forall₂ R l l' := by
  induction l generalizing l' with
  | nil =>
    rw [List.map_nil, eq_comm, List.map_eq_nil_iff] at h
    rw [h]
    exact .nil
  | cons a l ih =>
    cases l' with
    | nil => cases h
    | cons b l' =>
      obtain ⟨hab, hrest⟩ := List.cons.inj h
      exact .cons (hr a List.mem_cons_self b List.mem_cons_self hab)
        (ih hrest fun a' ha b' hb => hr a' (List.mem_cons_of_mem _ ha) b' (List.mem_cons_of_mem _ hb))

/-- Rows whose joined texts are the same have the same fields. -/
theorem UnmixedRows.same {α : Type} {fields : α → List String} {l l' : List α} (h : UnmixedRows fields l l')
    (he : join "&" (l.map fun a => join ":" (fields a)) = join "&" (l'.map fun a => join ":" (fields a))) :
    List.Forall₂ (fun a b => fields a = fields b) l l' :=
  forall₂_of_map_eq (h.rows he) fun a ha b hb hab => h.row a ha b hb hab

variable {lib}

/-- Optional inputs with the same fields: an absent one has fields of its own. -/
theorem rel_of_fields {α : Type} {fields : Option α → List String} {R : α → α → Prop} {o o' : Option α}
    (hne : ∀ a, fields (some a) ≠ fields none) (h : fields o = fields o')
    (hr : ∀ a ∈ o, ∀ b ∈ o', fields (some a) = fields (some b) → R a b) : Option.Rel R o o' := by
  cases o with
  | none =>
    cases o' with
    | none => exact .none
    | some b => exact absurd h.symm (hne b)
  | some a =>
    cases o' with
    | none => exact absurd h (hne a)
    | some b => exact .some (hr a rfl b rfl h)

theorem ReadableComparison.same {c c' : FilingComparison} (h : ReadableComparison lib c c')
    (he : comparisonFields lib (some c) = comparisonFields lib (some c')) : SameComparison lib c c' := by
  simp only [comparisonFields, List.cons.injEq, and_true, true_and] at he
  obtain ⟨-, -, -, hwhole, hsections, hxbrl, hkeywords, -, hflags⟩ := he
  refine ⟨?_, ?_, ?_, ?_, perm_of_sortedFlags (h.flags hflags)⟩
  · refine rel_of_fields (fun w hw => ?_) (h.whole hwhole) fun w _ w' _ hw => ?_
    · have hlen : 3 = 1 := congrArg List.length hw
      cases hlen
    · simp only [wholeFields, List.cons.injEq] at hw
      exact hw.2.1
  · refine (h.sections.same hsections).imp fun s s' hs => ?_
    simp only [sectionFields, List.cons.injEq, and_true] at hs
    exact ⟨sectionType_value_inj hs.1, sectionStatus_value_inj hs.2.1, hs.2.2⟩
  · refine (h.xbrl.same hxbrl).imp fun r r' hr => ?_
    simp only [xbrlFields, List.cons.injEq, and_true] at hr
    exact ⟨hr.1, hr.2.2.2, hr.2.2.1⟩
  · refine (h.keywords.same hkeywords).imp fun s s' hs => ?_
    simp only [keywordFields, List.cons.injEq, and_true] at hs
    exact ⟨keywordCategory_value_inj hs.1, Int.repr_injective hs.2⟩

theorem ReadableActivity.same {a a' : InsiderActivity} (h : ReadableActivity lib a a')
    (he : insiderFields lib (some a) = insiderFields lib (some a')) : SameActivity lib a a' := by
  simp only [insiderFields, List.cons.injEq, and_true, true_and] at he
  obtain ⟨-, -, haggregates, hclusters, -, hflags⟩ := he
  refine ⟨?_, (h.clusters.same hclusters).length_eq, perm_of_sortedFlags (h.flags hflags)⟩
  refine (h.aggregates.same haggregates).imp fun g g' hg => ?_
  simp only [aggregateFields, List.cons.injEq, and_true] at hg
  exact ⟨Nat.repr_injective hg.2.1, hg.2.2.1⟩

theorem Readable.comparison_same {x y : Inputs} (h : Readable lib x y)
    (he : comparisonPart lib x.comparison = comparisonPart lib y.comparison) :
    Option.Rel (SameComparison lib) x.comparison y.comparison := by
  rw [comparisonPart_eq, comparisonPart_eq] at he
  refine rel_of_fields (fun c hc => ?_) (h.comparison he) fun c hc c' hc' hf => (h.comparisons c hc c' hc').same hf
  have hlen : 10 = 1 := congrArg List.length hc
  cases hlen

theorem Readable.insider_same {x y : Inputs} (h : Readable lib x y)
    (he : insiderPart lib x.insiderActivity = insiderPart lib y.insiderActivity) :
    Option.Rel (SameActivity lib) x.insiderActivity y.insiderActivity := by
  rw [insiderPart_eq, insiderPart_eq] at he
  refine rel_of_fields (fun a ha => ?_) (h.insider he) fun a ha a' ha' hf => (h.activities a ha a' ha').same hf
  have hlen : 7 = 1 := congrArg List.length ha
  cases hlen

/-- What equal fingerprints say. -/
theorem sameText_of_fingerprint {x y : Inputs} (hinj : Function.Injective lib.sourceHash) (h : Readable lib x y)
    (he : inputFingerprint lib x = inputFingerprint lib y) : SameText lib x y := by
  have hparts := hinj he
  simp only [List.cons.injEq, and_true, true_and] at hparts
  obtain ⟨-, hevent, hcomparison, hinsider, hwatchlist, hcontext⟩ := hparts
  have hfields := h.event hevent
  simp only [eventFields, List.cons.injEq, and_true, true_and] at hfields
  obtain ⟨-, htype, -, hitems, haccepted, -, hflags, hamend⟩ := hfields
  obtain ⟨honlist, hpinned⟩ := watchlistPart_inj hwatchlist
  obtain ⟨hcount, hsource⟩ := contextPart_inj hcontext
  refine ⟨eventType_value_inj htype, h.items hitems, isoformat_getD_inj haccepted, ?_,
    perm_of_sortedFlags (h.flags hflags), h.comparison_same hcomparison, h.insider_same hinsider, honlist, hpinned,
    hcount, hsource⟩
  revert hamend
  cases x.event.isAmendment <;> cases y.event.isAmendment <;>
    first | exact fun _ => rfl | (intro h; exact absurd h (by decide))

end TalonX.Significance
