import TalonX.Insider.Merge
import TalonX.Transact.Text

/-!
# The order of observations

Observations of one transaction are merged one after the other. Where one of them leads, the order does not matter.

- `Cell.rank`: absent, zero or a value; a merge takes the larger rank;
- `Alike`, `Dominated`, `Leads`: which observation is the base in the end;
- `BasedOn`, `Seen`: the stored row after several observations (`seen_observe`);
- `merge_order_independent`: all orders give one row, which keeps what any observation gives.
-/

set_option autoImplicit false

namespace TalonX.Insider

open TalonX.Core (PyFloat)

/-! ## Ranks -/

/-- What is known: nothing, a zero, or a value. -/
def Cell.rank : Cell → ℕ
  | .absent => 0
  | .text s => if s = "" then 0 else 2
  | .number x => if x = 0 then 1 else 2
  | _ => 2

theorem Cell.rank_le (c : Cell) : c.rank ≤ 2 := by
  unfold Cell.rank
  split
  · exact Nat.zero_le 2
  · split <;> omega
  · split <;> omega
  · exact le_rfl

theorem Cell.unfilled_iff (c : Cell) : c.unfilled = true ↔ c.rank < 2 := by
  cases c with
  | text s => by_cases h : s = "" <;> simp [unfilled, rank, h]
  | number x => by_cases h : x = 0 <;> simp [unfilled, rank, h]
  | _ => simp [unfilled, rank]

theorem Cell.given_iff (c : Cell) : c.given = true ↔ 0 < c.rank := by
  cases c with
  | text s => by_cases h : s = "" <;> simp [given, rank, h]
  | number x => by_cases h : x = 0 <;> simp [given, rank, h]
  | _ => simp [given, rank]

/-- Two zeros are the same. -/
theorem Cell.eq_of_rank_one {c c' : Cell} (h : c.rank = 1) (h' : c'.rank = 1) : c = c' := by
  have hzero : ∀ c : Cell, c.rank = 1 → c = .number 0 := by
    intro c hc
    cases c with
    | text s => by_cases hs : s = "" <;> simp [rank, hs] at hc
    | number x =>
      by_cases hx : x = 0
      · rw [hx]
      · simp [rank, hx] at hc
    | _ => simp [rank] at hc
  rw [hzero c h, hzero c' h']

/-- A field of the merged row. -/
def Cell.fillWith (base other : Cell) : Cell := if base.unfilled && other.given then other else base

theorem Cell.fillWith_cases (base other : Cell) :
    (base.fillWith other = other ∧ base.rank < 2 ∧ 0 < other.rank) ∨
      (base.fillWith other = base ∧ (base.rank = 2 ∨ other.rank = 0)) := by
  unfold fillWith
  split
  · next h =>
    rw [Bool.and_eq_true, unfilled_iff, given_iff] at h
    exact .inl ⟨rfl, h⟩
  · next h =>
    rw [Bool.and_eq_true, unfilled_iff, given_iff] at h
    have := base.rank_le
    exact .inr ⟨rfl, by omega⟩

theorem Cell.rank_fillWith (base other : Cell) : (base.fillWith other).rank = max base.rank other.rank := by
  have := other.rank_le
  rcases fillWith_cases base other with ⟨h, _, _⟩ | ⟨h, _⟩ <;> rw [h] <;> omega

theorem cell_fill {α : Type} (cell : α → Cell) (base other : α) :
    cell (fill cell base other) = (cell base).fillWith (cell other) :=
  apply_ite cell _ other base

theorem cell_backfilled (base other : InsiderTransaction) (f : BackfillField) :
    (backfilled base other).cell f = (base.cell f).fillWith (other.cell f) := by
  cases f <;>
    first | exact cell_fill .ofText _ _ | exact cell_fill .ofNumber _ _ | exact cell_fill .ofStamp _ _
          | exact cell_fill .ofDay _ _ | exact cell_fill .text _ _

theorem Cell.ofStamp_inj {a b : Option Clock.Utc} (h : ofStamp a = ofStamp b) : a = b := by
  cases a <;> cases b <;> first | rfl | exact congrArg some (stamp.inj h) | cases h

theorem Cell.ofDay_inj {a b : Option Clock.Date} (h : ofDay a = ofDay b) : a = b := by
  cases a <;> cases b <;> first | rfl | exact congrArg some (day.inj h) | cases h

theorem Cell.ofText_inj {a b : Option String} (h : ofText a = ofText b) : a = b := by
  cases a <;> cases b <;> first | rfl | exact congrArg some (text.inj h) | cases h

theorem Cell.ofNumber_inj {a b : Option PyFloat} (h : ofNumber a = ofNumber b) : a = b := by
  cases a <;> cases b <;> first | rfl | exact congrArg some (number.inj h) | cases h

/-! ## Columns -/

namespace InsiderTransaction

/-- The columns that no merge fills. -/
def blank (t : InsiderTransaction) : InsiderTransaction :=
  { t with
    symbol := t.symbol.toUpper
    acceptedAtUtc := none, eventId := none, filingDate := none, periodOfReport := none, companyName := ""
    ownerCik := none, ownerName := "", officerTitle := none, securityTitle := none, transactionShares := none
    pricePerShare := none, transactionValue := none, sharesOwnedAfter := none, natureOfOwnershipText := none
    sourceRowSk := none, signedOpenMarketShares := none, signedOpenMarketValue := none, dataQualityFlags := [] }

theorem blank_asRow (t : InsiderTransaction) : t.asRow.blank = t.blank := by
  have hsymbol : t.symbol.toUpper.toUpper = t.symbol.toUpper := Transact.toUpper_toUpper t.symbol
  unfold blank asRow
  dsimp only
  rw [hsymbol]

/-- A row without `nan`. -/
def NoNan (t : InsiderTransaction) : Prop := ∀ f, t.cell f ≠ .number .nan

theorem ofNumber_realColumn {x : Option PyFloat} (h : Cell.ofNumber x ≠ .number .nan) : realColumn x = x := by
  cases x with
  | none => rfl
  | some q =>
    have hq : q ≠ .nan := fun e => h (by rw [e]; rfl)
    simp [realColumn, hq]

theorem cell_asRow {t : InsiderTransaction} (h : t.NoNan) (f : BackfillField) : t.asRow.cell f = t.cell f := by
  have hf := h f
  cases f <;> first | rfl | exact congrArg Cell.ofNumber (ofNumber_realColumn hf)

/-- The field and the rank at which a flag is discarded. -/
def needed (flag : String) : Option (BackfillField × ℕ) :=
  if flag = "missing_acceptance_timestamp" ∨ flag = "filing_date_used_as_acceptance" then some (.acceptedAtUtc, 1)
  else if flag = "owner_cik_missing" then some (.ownerCik, 1)
  else if flag = "missing_price" then some (.pricePerShare, 2)
  else if flag = "missing_shares" then some (.transactionShares, 1)
  else none

theorem discards_iff (t : InsiderTransaction) (flag : String) :
    t.discards flag = true ↔ ∃ n ∈ needed flag, n.2 ≤ (t.cell n.1).rank := by
  unfold discards needed
  split
  · cases h : t.acceptedAtUtc <;> simp [cell, h, Cell.ofStamp, Cell.rank]
  · split
    · cases h : t.ownerCik with
      | none => simp [cell, h, Cell.ofText, Cell.rank]
      | some s => by_cases hs : s = "" <;> simp [cell, h, Cell.ofText, Cell.rank, hs]
    · split
      · cases h : t.pricePerShare with
        | none => simp [cell, h, Cell.ofNumber, Cell.rank]
        | some x => by_cases hx : x = 0 <;> simp [cell, h, Cell.ofNumber, Cell.rank, hx]
      · split
        · cases h : t.transactionShares with
          | none => simp [cell, h, Cell.ofNumber, Cell.rank]
          | some x => by_cases hx : x = 0 <;> simp [cell, h, Cell.ofNumber, Cell.rank, hx]
        · simp

theorem discards_mono {t u : InsiderTransaction} (h : ∀ f, (t.cell f).rank ≤ (u.cell f).rank) {flag : String}
    (hd : t.discards flag = true) : u.discards flag = true := by
  rw [discards_iff] at hd ⊢
  obtain ⟨n, hn, hle⟩ := hd
  exact ⟨n, hn, hle.trans (h _)⟩

theorem discards_congr {t u : InsiderTransaction} (h : ∀ f, t.cell f = u.cell f) (flag : String) :
    t.discards flag = u.discards flag := by
  rw [Bool.eq_iff_iff, discards_iff, discards_iff]
  simp only [h]

/-- Rows with the same columns and the same fields differ in their flags only. -/
theorem eq_of_cells {t u : InsiderTransaction} (ht : t.symbol.toUpper = t.symbol) (hu : u.symbol.toUpper = u.symbol)
    (hb : t.blank = u.blank) (hc : ∀ f, t.cell f = u.cell f) :
    { t with dataQualityFlags := [] } = { u with dataQualityFlags := [] } := by
  have hsymbol : t.symbol = u.symbol := ht.symm.trans ((congrArg symbol hb).trans hu)
  have haccepted := Cell.ofStamp_inj (hc .acceptedAtUtc)
  have hevent := Cell.ofText_inj (hc .eventId)
  have hfiled := Cell.ofDay_inj (hc .filingDate)
  have hperiod := Cell.ofDay_inj (hc .periodOfReport)
  have hcompany : t.companyName = u.companyName := Cell.text.inj (hc .companyName)
  have hcik := Cell.ofText_inj (hc .ownerCik)
  have howner : t.ownerName = u.ownerName := Cell.text.inj (hc .ownerName)
  have htitle := Cell.ofText_inj (hc .officerTitle)
  have hsecurity := Cell.ofText_inj (hc .securityTitle)
  have hshares := Cell.ofNumber_inj (hc .transactionShares)
  have hprice := Cell.ofNumber_inj (hc .pricePerShare)
  have hvalue := Cell.ofNumber_inj (hc .transactionValue)
  have hafter := Cell.ofNumber_inj (hc .sharesOwnedAfter)
  have hnature := Cell.ofText_inj (hc .natureOfOwnershipText)
  have hsk := Cell.ofText_inj (hc .sourceRowSk)
  have hsigned := Cell.ofNumber_inj (hc .signedOpenMarketShares)
  have hsignedValue := Cell.ofNumber_inj (hc .signedOpenMarketValue)
  -- the columns of `blank`, then the fields
  calc { t with dataQualityFlags := [] }
      = { t.blank with
          symbol := t.symbol, acceptedAtUtc := t.acceptedAtUtc, eventId := t.eventId, filingDate := t.filingDate
          periodOfReport := t.periodOfReport, companyName := t.companyName, ownerCik := t.ownerCik
          ownerName := t.ownerName, officerTitle := t.officerTitle, securityTitle := t.securityTitle
          transactionShares := t.transactionShares, pricePerShare := t.pricePerShare
          transactionValue := t.transactionValue, sharesOwnedAfter := t.sharesOwnedAfter
          natureOfOwnershipText := t.natureOfOwnershipText, sourceRowSk := t.sourceRowSk
          signedOpenMarketShares := t.signedOpenMarketShares, signedOpenMarketValue := t.signedOpenMarketValue } := rfl
    _ = { u with dataQualityFlags := [] } := by
      rw [hb, hsymbol, haccepted, hevent, hfiled, hperiod, hcompany, hcik, howner, htitle, hsecurity, hshares, hprice,
        hvalue, hafter, hnature, hsk, hsigned, hsignedValue]
      rfl

end InsiderTransaction

/-! ## One merge -/

theorem mem_mergeFrom_flags {base other prior incoming : InsiderTransaction} (hb : base = prior ∨ base = incoming)
    {flag : String} : flag ∈ (mergeFrom base other prior incoming).dataQualityFlags ↔
      flag ∈ base.dataQualityFlags ∧ (backfilled base other).discards flag = false := by
  have hmem : ∀ f ∈ base.dataQualityFlags, f ∈ prior.dataQualityFlags ++ incoming.dataQualityFlags := by
    intro f hf
    rcases hb with rfl | rfl
    · exact List.mem_append_left _ hf
    · exact List.mem_append_right _ hf
  unfold mergeFrom
  dsimp only
  rw [List.mem_filter, List.contains_iff_mem, List.mem_filter, Bool.not_eq_true']
  exact ⟨fun h => h.2, fun h => ⟨hmem _ h.1, h⟩⟩

/-- The base of a merge, and the other row. -/
theorem merge_cases (prior incoming : InsiderTransaction) :
    (incomingIsBase prior incoming = true ∧ merge prior incoming = mergeFrom incoming prior prior incoming) ∨
      (incomingIsBase prior incoming = false ∧ merge prior incoming = mergeFrom prior incoming prior incoming) := by
  unfold merge
  cases h : incomingIsBase prior incoming
  · exact .inr ⟨rfl, rfl⟩
  · exact .inl ⟨rfl, rfl⟩

theorem incomingIsBase_true {prior incoming : InsiderTransaction} (h : incomingIsBase prior incoming = true) :
    incoming.incomplete < prior.incomplete ∨
      (incoming.incomplete = prior.incomplete ∧ incoming.fromArchives = true) := by
  unfold incomingIsBase at h
  split at h
  · next hlt => exact .inl hlt
  · next hlt =>
    split at h
    · cases h
    · next hgt => exact .inr ⟨by omega, h⟩

theorem incomingIsBase_false {prior incoming : InsiderTransaction} (h : incomingIsBase prior incoming = false) :
    prior.incomplete < incoming.incomplete ∨
      (incoming.incomplete = prior.incomplete ∧ incoming.fromArchives = false) := by
  unfold incomingIsBase at h
  split at h
  · cases h
  · next hlt =>
    split at h
    · next hgt => exact .inl hgt
    · next hgt => exact .inr ⟨by omega, h⟩

/-! ## Leading observations -/

/-- Observations that differ in their fields only. -/
structure Alike (w o : InsiderTransaction) : Prop where
  blank : o.blank = w.blank
  flags : ∀ flag, flag ∈ o.dataQualityFlags ↔ flag ∈ w.dataQualityFlags

/-- The completeness flags of `o` that no observation lets a merge discard. -/
def residue (O : List InsiderTransaction) (o : InsiderTransaction) : ℕ :=
  completenessFlags.countP fun flag => o.dataQualityFlags.contains flag && !O.any (·.discards flag)

/-- `o` is never the base of a merge with `w`, however much the others have filled in. -/
def Dominated (O : List InsiderTransaction) (w o : InsiderTransaction) : Prop :=
  w.incomplete < residue O o ∨ (w.incomplete = residue O o ∧ w.fromArchives = true ∧ o.fromArchives = false)

/-- The columns that no merge fills: whether they are given. -/
def fixedColumns : List (InsiderTransaction → Bool) :=
  [fun t => t.accession != "", fun t => t.issuerCik != "", fun t => t.symbol != "", (·.transactionDate.isSome),
    fun t => t.transactionCode.any (· != ""), fun t => t.amendsAccession.any (· != ""),
    fun t => !t.ownerRoles.isEmpty, fun t => t.sourceReference != ""]

/-- The field that a completeness flag describes is empty. A price of zero is none. -/
structure DescribesEmpty (t : InsiderTransaction) (flag : String) : Prop where
  accepted : flag = "missing_acceptance_timestamp" ∨ flag = "filing_date_used_as_acceptance" → t.acceptedAtUtc = none
  owner : flag = "owner_cik_missing" → t.ownerCik = none ∨ t.ownerCik = some ""
  price : flag = "missing_price" → t.pricePerShare = none ∨ t.pricePerShare = some 0
  shares : flag = "missing_shares" → t.transactionShares = none
  role : flag = "role_unresolved" → (t.cell .officerTitle).rank = 0 ∨ t.ownerRole = .other
  date : flag = "missing_transaction_date" → t.transactionDate = none
  symbol : flag = "symbol_unresolved" → t.symbol = ""

/-- `w` and the observations like it are the base in the end, and what they leave open the others agree on. -/
structure Leads (O : List InsiderTransaction) (w : InsiderTransaction) : Prop where
  mem : w ∈ O
  others : ∀ o ∈ O, Alike w o ∨ Dominated O w o
  values : ∀ f, (∃ c : Cell, c.rank = 2 ∧ ∀ o ∈ O, Alike w o → o.cell f = c) ∨
    ∀ o ∈ O, ∀ o' ∈ O, (o.cell f).rank = 2 → (o'.cell f).rank = 2 → o.cell f = o'.cell f
  empties : ∀ f, (∀ o ∈ O, (o.cell f).rank = 0) → ∀ o ∈ O, Alike w o → o.cell f = w.cell f
  alone : (∀ o ∈ O, o = w) → ∀ flag ∈ w.dataQualityFlags, w.discards flag = false
  columns : ∀ column ∈ fixedColumns, ∀ o ∈ O, column o = true → column w = true
  role : "role_unresolved" ∈ w.dataQualityFlags →
    w.ownerRole = .other ∨ ∀ o ∈ O, (o.cell .officerTitle).rank = 0
  date : "missing_transaction_date" ∈ w.dataQualityFlags → w.transactionDate = none
  symbol : "symbol_unresolved" ∈ w.dataQualityFlags → w.symbol = ""
  numbers : ∀ o ∈ O, o.NoNan

theorem Alike.refl (w : InsiderTransaction) : Alike w w := ⟨rfl, fun _ => Iff.rfl⟩

theorem fromArchives_of_blank {t u : InsiderTransaction} (h : t.blank = u.blank) : t.fromArchives = u.fromArchives := by
  have hblank : t.blank.fromArchives = u.blank.fromArchives := congrArg InsiderTransaction.fromArchives h
  exact hblank

theorem incomplete_le {t u : InsiderTransaction} (h : ∀ flag ∈ t.dataQualityFlags, flag ∈ u.dataQualityFlags) :
    t.incomplete ≤ u.incomplete :=
  List.countP_mono_left fun flag _ hf => List.contains_iff_mem.2 (h flag (List.contains_iff_mem.1 hf))

theorem Alike.incomplete_eq {w o : InsiderTransaction} (h : Alike w o) : o.incomplete = w.incomplete :=
  le_antisymm (incomplete_le fun flag => (h.flags flag).1) (incomplete_le fun flag => (h.flags flag).2)

theorem residue_le_incomplete (O : List InsiderTransaction) (o : InsiderTransaction) : residue O o ≤ o.incomplete :=
  List.countP_mono_left fun _ _ hf => (Bool.and_eq_true_iff.1 hf).1

/-! ## The stored row -/

/-- The stored row has the columns of the observation `o`, and its flags but for the discarded ones. -/
structure BasedOn (O : List InsiderTransaction) (s o : InsiderTransaction) : Prop where
  blank : s.blank = o.blank
  flags : ∀ flag ∈ s.dataQualityFlags, flag ∈ o.dataQualityFlags
  kept : ∀ flag ∈ o.dataQualityFlags, flag ∈ s.dataQualityFlags ∨ s.discards flag = true
  empties : ∀ f, (∀ x ∈ O, (x.cell f).rank = 0) → s.cell f = o.cell f

theorem BasedOn.refl (O : List InsiderTransaction) (o : InsiderTransaction) : BasedOn O o o :=
  ⟨rfl, fun _ => id, fun _ => .inl, fun _ _ => rfl⟩

/-- A merge keeps what its base is based on. -/
theorem BasedOn.mergeFrom {O : List InsiderTransaction} {base other prior incoming o : InsiderTransaction}
    (h : BasedOn O base o) (hb : base = prior ∨ base = incoming)
    (hother : ∀ f, (∀ x ∈ O, (x.cell f).rank = 0) → (other.cell f).rank = 0)
    (hnan : (mergeFrom base other prior incoming).NoNan) :
    BasedOn O (mergeFrom base other prior incoming).asRow o := by
  have hcell : ∀ f, (Insider.mergeFrom base other prior incoming).asRow.cell f =
      (base.cell f).fillWith (other.cell f) := fun f =>
    (InsiderTransaction.cell_asRow hnan f).trans (cell_backfilled base other f)
  have hdiscards : ∀ flag, (Insider.mergeFrom base other prior incoming).asRow.discards flag =
      (backfilled base other).discards flag :=
    InsiderTransaction.discards_congr fun f => (hcell f).trans (cell_backfilled base other f).symm
  refine ⟨?_, fun flag hf => ?_, fun flag hf => ?_, fun f hO => ?_⟩
  · rw [InsiderTransaction.blank_asRow]
    exact h.blank
  · exact h.flags flag ((mem_mergeFrom_flags hb).1 hf).1
  · rw [hdiscards]
    by_cases hd : (backfilled base other).discards flag = true
    · exact .inr hd
    · rcases h.kept flag hf with hbase | hbase
      · exact .inl ((mem_mergeFrom_flags hb).2 ⟨hbase, Bool.not_eq_true _ ▸ hd⟩)
      · refine .inr (InsiderTransaction.discards_mono (fun f => ?_) hbase)
        rw [cell_backfilled, Cell.rank_fillWith]
        exact le_max_left _ _
  · rw [hcell, ← h.empties f hO]
    rcases Cell.fillWith_cases (base.cell f) (other.cell f) with ⟨-, -, hpos⟩ | ⟨he, -⟩
    · exact absurd (hother f hO) hpos.ne'
    · exact he

/-- The stored row after the observations `l`, which are among `O`. -/
structure Seen (O : List InsiderTransaction) (w : InsiderTransaction) (l : List InsiderTransaction)
    (s : InsiderTransaction) : Prop where
  symbol : s.symbol.toUpper = s.symbol
  cells : ∀ f, ∃ o ∈ l, s.cell f = o.cell f
  ranks : ∀ f, ∀ o ∈ l, (o.cell f).rank ≤ (s.cell f).rank
  base : ∃ o ∈ l, BasedOn O s o ∧ ((∃ x ∈ l, Alike w x) → Alike w o)
  full : ∀ f (c : Cell), c.rank = 2 → (∀ o ∈ O, Alike w o → o.cell f = c) → (∃ x ∈ l, Alike w x) → s.cell f = c
  clean : 2 ≤ l.length → ∀ flag ∈ s.dataQualityFlags, s.discards flag = false

theorem asRow_symbol (t : InsiderTransaction) : t.asRow.symbol.toUpper = t.asRow.symbol :=
  Transact.toUpper_toUpper t.symbol

variable {O : List InsiderTransaction} {w : InsiderTransaction}

/-- A row that differs from another one by what storing it changes. -/
theorem BasedOn.asRow {s o : InsiderTransaction} (h : BasedOn O s o) (hnan : s.NoNan) : BasedOn O s.asRow o := by
  refine ⟨(InsiderTransaction.blank_asRow s).trans h.blank, h.flags, fun flag hf => ?_, fun f hO => ?_⟩
  · rw [InsiderTransaction.discards_congr (InsiderTransaction.cell_asRow hnan)]
    exact h.kept flag hf
  · rw [InsiderTransaction.cell_asRow hnan]
    exact h.empties f hO

theorem seen_first {o : InsiderTransaction} (ho : o ∈ O) (hnan : o.NoNan) : Seen O w [o] o.asRow := by
  have hcell := InsiderTransaction.cell_asRow hnan
  refine ⟨asRow_symbol o, fun f => ⟨o, List.mem_cons_self, hcell f⟩, fun f x hx => ?_,
    ⟨o, List.mem_cons_self, (BasedOn.refl O o).asRow hnan, fun ⟨x, hx, hw⟩ => List.mem_singleton.1 hx ▸ hw⟩,
    fun f c _ hall ⟨x, hx, hw⟩ => ?_, fun hlen => absurd hlen (by simp)⟩
  · rw [List.mem_singleton.1 hx, hcell]
  · rw [List.mem_singleton.1 hx] at hw
    exact (hcell f).trans (hall o ho hw)

/-- The flags of the stored row count at least what no observation discards. -/
theorem Seen.residue_le {l : List InsiderTransaction} {s o : InsiderTransaction} (h : Seen O w l s)
    (hl : ∀ x ∈ l, x ∈ O) (hb : BasedOn O s o) : residue O o ≤ s.incomplete := by
  refine List.countP_mono_left fun flag _ hf => ?_
  rw [Bool.and_eq_true, List.contains_iff_mem, Bool.not_eq_true', List.any_eq_false] at hf
  rw [List.contains_iff_mem]
  refine (hb.kept flag hf.1).resolve_right fun hd => ?_
  -- the field that discards the flag comes from an observation
  obtain ⟨n, hn, hle⟩ := (InsiderTransaction.discards_iff s flag).1 hd
  obtain ⟨x, hx, hcell⟩ := h.cells n.1
  exact hf.2 x (hl x hx) ((InsiderTransaction.discards_iff x flag).2 ⟨n, hn, hcell ▸ hle⟩)

/-- A stored row of a leading observation stays the base. -/
theorem leading_stays {s x : InsiderTransaction} (hs : s.incomplete ≤ w.incomplete) (hx : Dominated O w x) :
    incomingIsBase s x = false := by
  rw [← Bool.not_eq_true]
  intro h
  have hle := residue_le_incomplete O x
  rcases hx with hlt | ⟨heq, -, harchive⟩
  · rcases incomingIsBase_true h with h | ⟨h, -⟩ <;> omega
  · rcases incomingIsBase_true h with h | ⟨-, h⟩
    · omega
    · rw [harchive] at h
      cases h

/-- An incoming leading observation becomes the base. -/
theorem leading_comes {s x o : InsiderTransaction} (hs : residue O o ≤ s.incomplete) (ho : Dominated O w o)
    (hx : Alike w x) : incomingIsBase s x = true := by
  rw [← Bool.not_eq_false]
  intro h
  have hincomplete := hx.incomplete_eq
  rcases ho with hlt | ⟨heq, harchive, -⟩
  · rcases incomingIsBase_false h with h | ⟨h, -⟩ <;> omega
  · rcases incomingIsBase_false h with h | ⟨-, h⟩
    · omega
    · rw [fromArchives_of_blank hx.blank, harchive] at h
      cases h

/-- A leading observation is the base as soon as one was seen. -/
theorem Seen.base_after {l : List InsiderTransaction} {s x o : InsiderTransaction} (hO : Leads O w)
    (h : Seen O w l s) (hl : ∀ x ∈ l, x ∈ O) (hx : x ∈ O) (ho : o ∈ l) (hb : BasedOn O s o)
    (hlead : (∃ y ∈ l, Alike w y) → Alike w o) (hsome : ∃ y ∈ l ++ [x], Alike w y) :
    Alike w (if incomingIsBase s x then x else o) := by
  have hsplit : Alike w o ∨ Alike w x := by
    obtain ⟨y, hy, hw⟩ := hsome
    rcases List.mem_append.1 hy with hy | hy
    · exact .inl (hlead ⟨y, hy, hw⟩)
    · exact .inr (List.mem_singleton.1 hy ▸ hw)
  split
  · next htrue =>
    rcases hO.others x hx with hwx | hdominated
    · exact hwx
    · refine hsplit.resolve_left fun hwo => ?_
      have hs : s.incomplete ≤ w.incomplete := (incomplete_le hb.flags).trans_eq hwo.incomplete_eq
      rw [leading_stays hs hdominated] at htrue
      cases htrue
  · next hfalse =>
    rcases hO.others o (hl o ho) with hwo | hdominated
    · exact hwo
    · exact hsplit.resolve_right fun hwx => hfalse (leading_comes (h.residue_le hl hb) hdominated hwx)

/-- One more observation. -/
theorem seen_observe {l : List InsiderTransaction} {s x : InsiderTransaction} (hO : Leads O w) (h : Seen O w l s)
    (hl : ∀ x ∈ l, x ∈ O) (hx : x ∈ O) : Seen O w (l ++ [x]) (observe (some s) x) := by
  obtain ⟨o, ho, hb, hlead⟩ := h.base
  -- the base and the other row of the merge, and the observation the result is based on
  obtain ⟨base, other, origin, hbase, hmerge, horigin, hborigin, hpair⟩ : ∃ base other origin,
      (base = s ∨ base = x) ∧ merge s x = mergeFrom base other s x ∧
        origin = (if incomingIsBase s x then x else o) ∧ BasedOn O base origin ∧
          ((base = x ∧ other = s ∧ origin = x) ∨ (base = s ∧ other = x ∧ origin = o)) := by
    rcases merge_cases s x with ⟨htrue, he⟩ | ⟨hfalse, he⟩
    · exact ⟨x, s, x, .inr rfl, he, by rw [htrue, if_pos rfl], BasedOn.refl O x, .inl ⟨rfl, rfl, rfl⟩⟩
    · exact ⟨s, x, o, .inl rfl, he, by rw [hfalse]; rfl, hb, .inr ⟨rfl, rfl, rfl⟩⟩
  have hcellMerge : ∀ f, (mergeFrom base other s x).cell f = (base.cell f).fillWith (other.cell f) :=
    cell_backfilled base other
  have horg : ∀ f, ∃ y ∈ l ++ [x], (mergeFrom base other s x).cell f = y.cell f := by
    intro f
    have hs : ∃ y ∈ l ++ [x], s.cell f = y.cell f := by
      obtain ⟨y, hy, he⟩ := h.cells f
      exact ⟨y, List.mem_append_left _ hy, he⟩
    have hxl : ∃ y ∈ l ++ [x], x.cell f = y.cell f := ⟨x, List.mem_append_right _ List.mem_cons_self, rfl⟩
    rw [hcellMerge]
    rcases Cell.fillWith_cases (base.cell f) (other.cell f) with ⟨he, -⟩ | ⟨he, -⟩ <;> rw [he] <;>
      rcases hpair with ⟨rfl, rfl, -⟩ | ⟨rfl, rfl, -⟩ <;> assumption
  have hall : ∀ y ∈ l ++ [x], y ∈ O := by
    intro y hy
    rcases List.mem_append.1 hy with hy | hy
    · exact hl y hy
    · exact List.mem_singleton.1 hy ▸ hx
  have hnan : (mergeFrom base other s x).NoNan := by
    intro f
    obtain ⟨y, hy, he⟩ := horg f
    rw [he]
    exact hO.numbers y (hall y hy) f
  have hcell : ∀ f, (mergeFrom base other s x).asRow.cell f = (mergeFrom base other s x).cell f :=
    InsiderTransaction.cell_asRow hnan
  have hrank : ∀ f, ((mergeFrom base other s x).cell f).rank = max (s.cell f).rank (x.cell f).rank := by
    intro f
    rw [hcellMerge, Cell.rank_fillWith]
    rcases hpair with ⟨rfl, rfl, -⟩ | ⟨rfl, rfl, -⟩
    · exact max_comm _ _
    · rfl
  have hresult : observe (some s) x = (mergeFrom base other s x).asRow := by
    unfold observe
    rw [Option.elim_some, hmerge]
  rw [hresult]
  refine ⟨asRow_symbol _, fun f => ?_, fun f y hy => ?_, ⟨origin, ?_, ?_, ?_⟩, fun f c hc hleads hsome => ?_,
    fun _ flag hf => ?_⟩
  · rw [hcell]
    exact horg f
  · rw [hcell, hrank]
    rcases List.mem_append.1 hy with hy | hy
    · exact le_max_of_le_left (h.ranks f y hy)
    · rw [List.mem_singleton.1 hy]
      exact le_max_right _ _
  · rw [horigin]
    split
    · exact List.mem_append_right _ List.mem_cons_self
    · exact List.mem_append_left _ ho
  · refine hborigin.mergeFrom hbase (fun f hempty => ?_) hnan
    have hs : (s.cell f).rank = 0 := by
      obtain ⟨y, hy, he⟩ := h.cells f
      rw [he]
      exact hempty y (hl y hy)
    rcases hpair with ⟨-, rfl, -⟩ | ⟨-, rfl, -⟩
    · exact hs
    · exact hempty _ hx
  · intro hsome
    rw [horigin]
    exact h.base_after hO hl hx ho hb hlead hsome
  · have hworigin : Alike w origin := by
      rw [horigin]
      exact h.base_after hO hl hx ho hb hlead hsome
    have hbasecell : base.cell f = c := by
      rcases hpair with ⟨rfl, -, rfl⟩ | ⟨rfl, -, rfl⟩
      · exact hleads _ hx hworigin
      · exact h.full f c hc hleads ⟨_, ho, hworigin⟩
    rw [hcell, hcellMerge]
    rcases Cell.fillWith_cases (base.cell f) (other.cell f) with ⟨-, hlt, -⟩ | ⟨he, -⟩
    · rw [hbasecell] at hlt
      omega
    · exact he.trans hbasecell
  · rw [InsiderTransaction.discards_congr (u := backfilled base other) fun f =>
      (hcell f).trans (hcellMerge f |>.trans (cell_backfilled base other f).symm)]
    exact ((mem_mergeFrom_flags hbase).1 hf).2

/-! ## All observations -/

theorem foldl_observe {l : List InsiderTransaction} (hO : Leads O w) (hl : ∀ x ∈ l, x ∈ O) (hne : l ≠ []) :
    ∃ s, l.foldl (fun row t => some (observe row t)) none = some s ∧ Seen O w l s := by
  induction l using List.reverseRecOn with
  | nil => exact absurd rfl hne
  | append_singleton l x ih =>
    have hx : x ∈ O := hl x (List.mem_append_right _ List.mem_cons_self)
    rw [List.foldl_concat]
    by_cases hnil : l = []
    · rw [hnil]
      exact ⟨x.asRow, rfl, seen_first hx (hO.numbers x hx)⟩
    · have hl' : ∀ y ∈ l, y ∈ O := fun y hy => hl y (List.mem_append_left _ hy)
      obtain ⟨s, hs, hseen⟩ := ih hl' hnil
      rw [hs]
      exact ⟨_, rfl, seen_observe hO hseen hl' hx⟩

/-- All observations of `O`, in some order and maybe more than once. -/
def Covers (O l : List InsiderTransaction) : Prop := ∀ o, o ∈ l ↔ o ∈ O

/-- Equal but for the order of the flags, and their repetitions. -/
structure SameRow (s s' : InsiderTransaction) : Prop where
  columns : { s with dataQualityFlags := [] } = { s' with dataQualityFlags := [] }
  flags : ∀ flag, flag ∈ s.dataQualityFlags ↔ flag ∈ s'.dataQualityFlags

variable {l : List InsiderTransaction} {s : InsiderTransaction}

/-- The rank of a field after all observations. -/
theorem Seen.rank_iff (h : Seen O w l s) (hl : Covers O l) (f : BackfillField) (k : ℕ) :
    k ≤ (s.cell f).rank ↔ ∃ o ∈ O, k ≤ (o.cell f).rank := by
  constructor
  · intro hle
    obtain ⟨o, ho, he⟩ := h.cells f
    exact ⟨o, (hl o).1 ho, he ▸ hle⟩
  · rintro ⟨o, ho, hle⟩
    exact hle.trans (h.ranks f o ((hl o).2 ho))

theorem Seen.leading (hO : Leads O w) (h : Seen O w l s) (hl : Covers O l) :
    ∃ o ∈ O, Alike w o ∧ BasedOn O s o := by
  obtain ⟨o, ho, hb, hlead⟩ := h.base
  exact ⟨o, (hl o).1 ho, hlead ⟨w, (hl w).2 hO.mem, Alike.refl w⟩, hb⟩

theorem Seen.cell_eq {l' : List InsiderTransaction} {s' : InsiderTransaction} (hO : Leads O w) (h : Seen O w l s)
    (h' : Seen O w l' s') (hl : Covers O l) (hl' : Covers O l') (f : BackfillField) : s.cell f = s'.cell f := by
  rcases hO.values f with ⟨c, hc, hall⟩ | hagree
  · rw [h.full f c hc hall ⟨w, (hl w).2 hO.mem, Alike.refl w⟩,
      h'.full f c hc hall ⟨w, (hl' w).2 hO.mem, Alike.refl w⟩]
  · obtain ⟨o, ho, he⟩ := h.cells f
    obtain ⟨o', ho', he'⟩ := h'.cells f
    have hrank : (s.cell f).rank = (s'.cell f).rank := by
      refine le_antisymm ?_ ?_
      · rw [he]
        exact h'.ranks f o ((hl' o).2 ((hl o).1 ho))
      · rw [he']
        exact h.ranks f o' ((hl o').2 ((hl' o').1 ho'))
    have hle := (s.cell f).rank_le
    obtain h0 | h1 | h2 : (s.cell f).rank = 0 ∨ (s.cell f).rank = 1 ∨ (s.cell f).rank = 2 := by omega
    · -- no observation gives the field: the leading ones are empty alike
      have hempty : ∀ x ∈ O, (x.cell f).rank = 0 := fun x hx =>
        Nat.le_zero.1 (h0 ▸ h.ranks f x ((hl x).2 hx))
      obtain ⟨b, hbO, hwb, hb⟩ := h.leading hO hl
      obtain ⟨b', hbO', hwb', hb'⟩ := h'.leading hO hl'
      rw [hb.empties f hempty, hb'.empties f hempty, hO.empties f hempty b hbO hwb, hO.empties f hempty b' hbO' hwb']
    · exact Cell.eq_of_rank_one h1 (hrank ▸ h1)
    · rw [he, he']
      exact hagree o ((hl o).1 ho) o' ((hl' o').1 ho') (he ▸ h2) (he' ▸ hrank ▸ h2)

/-- The flags that stay are those of the leading observations that the fields do not discard. -/
theorem Seen.mem_flags (hO : Leads O w) (h : Seen O w l s) (hl : Covers O l) (flag : String) :
    flag ∈ s.dataQualityFlags ↔ flag ∈ w.dataQualityFlags ∧ s.discards flag = false := by
  obtain ⟨o, ho, hwo, hb⟩ := h.leading hO hl
  constructor
  · intro hf
    have hfw : flag ∈ w.dataQualityFlags := (hwo.flags flag).1 (hb.flags flag hf)
    refine ⟨hfw, ?_⟩
    by_cases hlen : 2 ≤ l.length
    · exact h.clean hlen flag hf
    · -- one observation, stored as it is
      obtain ⟨x, rfl⟩ : ∃ x, l = [x] := by
        have hpos : 0 < l.length := List.length_pos_of_mem ((hl w).2 hO.mem)
        exact List.length_eq_one_iff.1 (by omega)
      have honly : ∀ y ∈ O, y = x := fun y hy => List.mem_singleton.1 ((hl y).2 hy)
      have hw : w = x := honly w hO.mem
      have hcell : ∀ f, s.cell f = w.cell f := fun f => by
        obtain ⟨y, hy, he⟩ := h.cells f
        rw [he, hw, List.mem_singleton.1 hy]
      rw [InsiderTransaction.discards_congr hcell]
      exact hO.alone (fun y hy => (honly y hy).trans hw.symm) flag hfw
  · rintro ⟨hf, hd⟩
    refine (hb.kept flag ((hwo.flags flag).2 hf)).resolve_right fun hd' => ?_
    rw [hd] at hd'
    cases hd'

/-- What a merge is to keep: no field that an observation gives is lost, and a completeness flag stays only where the
field is empty. -/
structure Complete (O : List InsiderTransaction) (s : InsiderTransaction) : Prop where
  fields : ∀ f, ∀ o ∈ O, 0 < (o.cell f).rank → 0 < (s.cell f).rank
  columns : ∀ column ∈ fixedColumns, ∀ o ∈ O, column o = true → column s = true
  flags : ∀ flag ∈ completenessFlags, flag ∈ s.dataQualityFlags → DescribesEmpty s flag

/-- A column is given in a row as in a row with the same columns. -/
theorem fixedColumn_congr {column : InsiderTransaction → Bool} (hc : column ∈ fixedColumns)
    {t u : InsiderTransaction} (h : t.blank = u.blank) : column t = column u := by
  have hblank : ∀ t : InsiderTransaction, column t.blank = column t := by
    intro t
    have hsymbol : (t.blank.symbol != "") = (t.symbol != "") := by
      have hempty : t.symbol.toUpper = "" ↔ t.symbol = "" := String.map_eq_empty
      show (t.symbol.toUpper != "") = _
      rw [Bool.eq_iff_iff, bne_iff_ne, bne_iff_ne, ne_eq, ne_eq, hempty]
    simp only [fixedColumns, List.mem_cons, List.not_mem_nil, or_false] at hc
    rcases hc with rfl | rfl | rfl | rfl | rfl | rfl | rfl | rfl <;> first | rfl | exact hsymbol
  rw [← hblank t, ← hblank u, h]

theorem Seen.complete (hO : Leads O w) (h : Seen O w l s) (hl : Covers O l) : Complete O s := by
  obtain ⟨b, hbO, hwb, hb⟩ := h.leading hO hl
  have hblank : s.blank = w.blank := hb.blank.trans hwb.blank
  refine ⟨fun f o ho hpos => ?_, fun column hc o ho hgiven => ?_, fun flag _ hf => ?_⟩
  · exact (h.rank_iff hl f 1).2 ⟨o, ho, hpos⟩
  · rw [fixedColumn_congr hc hblank]
    exact hO.columns column hc o ho hgiven
  · obtain ⟨hfw, hd⟩ := (h.mem_flags hO hl flag).1 hf
    unfold InsiderTransaction.discards at hd
    refine ⟨fun e => ?_, fun e => ?_, fun e => ?_, fun e => ?_, fun e => ?_, fun e => ?_, fun e => ?_⟩
    · rw [if_pos e] at hd
      simpa using hd
    · subst e
      simp only [String.reduceEq, or_self, if_false, if_true] at hd
      cases hs : s.ownerCik with
      | none => exact .inl rfl
      | some cik =>
        rw [hs] at hd
        simp at hd
        exact .inr (congrArg some hd)
    · subst e
      simp only [String.reduceEq, or_self, if_false, if_true] at hd
      cases hs : s.pricePerShare with
      | none => exact .inl rfl
      | some price =>
        rw [hs] at hd
        simp at hd
        exact .inr (congrArg some hd)
    · subst e
      simp only [String.reduceEq, or_self, if_false, if_true] at hd
      simpa using hd
    · subst e
      rcases hO.role hfw with hrole | htitle
      · exact .inr ((congrArg InsiderTransaction.ownerRole hblank).trans hrole)
      · obtain ⟨o, ho, he⟩ := h.cells .officerTitle
        exact .inl (he ▸ htitle o ((hl o).1 ho))
    · subst e
      exact (congrArg InsiderTransaction.transactionDate hblank).trans (hO.date hfw)
    · subst e
      have hs : s.symbol.toUpper = w.symbol.toUpper := congrArg InsiderTransaction.symbol hblank
      have hempty : ("" : String).toUpper = "" := String.map_eq_empty.2 rfl
      rw [hO.symbol hfw, hempty] at hs
      exact String.map_eq_empty.1 hs

/-- Where one observation leads, all orders of the observations, with any repetitions, store the same row, and nothing
that an observation gives is lost. -/
theorem merge_order_independent {S : InsiderStore} {id : String} (hS : S.transactions.get id = none)
    {O : List InsiderTransaction} (hid : ∀ o ∈ O, o.transactionId = id) {w : InsiderTransaction} (hO : Leads O w)
    {l l' : List InsiderTransaction} (hl : Covers O l) (hl' : Covers O l') :
    ∃ s s', (S.upsertAll l).transactions.get id = some s ∧ (S.upsertAll l').transactions.get id = some s' ∧
      SameRow s s' ∧ Complete O s := by
  have hrow : ∀ l, Covers O l → ∃ s, (S.upsertAll l).transactions.get id = some s ∧ Seen O w l s := by
    intro l hl
    have hne : l ≠ [] := List.ne_nil_of_mem ((hl w).2 hO.mem)
    obtain ⟨s, hs, hseen⟩ := foldl_observe hO (fun x hx => (hl x).1 hx) hne
    refine ⟨s, ?_, hseen⟩
    rw [InsiderStore.get_upsertAll S fun t ht => hid t ((hl t).1 ht), hS]
    exact hs
  obtain ⟨s, hs, h⟩ := hrow l hl
  obtain ⟨s', hs', h'⟩ := hrow l' hl'
  have hcell : ∀ f, s.cell f = s'.cell f := h.cell_eq hO h' hl hl'
  obtain ⟨b, -, hwb, hb⟩ := h.leading hO hl
  obtain ⟨b', -, hwb', hb'⟩ := h'.leading hO hl'
  have hblank : s.blank = s'.blank :=
    (hb.blank.trans hwb.blank).trans (hb'.blank.trans hwb'.blank).symm
  refine ⟨s, s', hs, hs', ⟨InsiderTransaction.eq_of_cells h.symbol h'.symbol hblank hcell, fun flag => ?_⟩,
    h.complete hO hl⟩
  rw [h.mem_flags hO hl, h'.mem_flags hO hl', InsiderTransaction.discards_congr hcell]

/-! ### A bulk row and a parsed filing -/

def bulkRow : InsiderTransaction :=
  { transactionId := "F4TX:1"
    accession := "0000320193-26-000001"
    issuerCik := "0000320193"
    symbol := "AAPL"
    ownerCik := some "0001214156"
    transactionShares := some (.fin 100)
    sourceRowSk := some "17"
    sourceReference := "SEC_FORM345_BULK:2026q1"
    dataQualityFlags := ["missing_acceptance_timestamp"] }

def parsedRow : InsiderTransaction :=
  { bulkRow with
    acceptedAtUtc := some ⟨7400000, by decide⟩
    pricePerShare := some (.fin 12)
    sourceRowSk := none
    sourceReference := "SEC_EDGAR_ARCHIVES:form4.xml"
    dataQualityFlags := [] }

theorem mem_observations {o : InsiderTransaction} (h : o ∈ [bulkRow, parsedRow]) : o = bulkRow ∨ o = parsedRow := by
  simpa using h

theorem not_alike_bulkRow : ¬ Alike parsedRow bulkRow := fun h =>
  absurd ((h.flags "missing_acceptance_timestamp").1 (by simp [bulkRow])) (by simp [parsedRow])

theorem parsedRow_leads : Leads [bulkRow, parsedRow] parsedRow where
  mem := by simp
  others := by
    intro o ho
    rcases mem_observations ho with rfl | rfl
    · exact .inr (.inr (by decide +kernel))
    · exact .inl (Alike.refl _)
  values := by
    intro f
    refine .inr fun o ho o' ho' => ?_
    cases f <;> rcases mem_observations ho with rfl | rfl <;> rcases mem_observations ho' with rfl | rfl <;>
      first | exact fun _ _ => rfl | exact fun h => absurd h (by decide) | exact fun _ h => absurd h (by decide)
  empties := by
    intro f _ o ho hlike
    rcases mem_observations ho with rfl | rfl
    · exact absurd hlike not_alike_bulkRow
    · rfl
  alone := fun h => absurd (congrArg (·.sourceReference) (h bulkRow (by simp))) (by decide)
  columns := by
    intro column hc o ho
    simp only [fixedColumns, List.mem_cons, List.not_mem_nil, or_false] at hc
    rcases hc with rfl | rfl | rfl | rfl | rfl | rfl | rfl | rfl <;> rcases mem_observations ho with rfl | rfl <;>
      decide
  role := by simp [parsedRow]
  date := by simp [parsedRow]
  symbol := by simp [parsedRow]
  numbers := by
    intro o ho f
    cases f <;> rcases mem_observations ho with rfl | rfl <;> (intro h; cases h)

/-- The bulk row before or after the parsed filing. -/
theorem merge_order_bulk_parsed :
    ∃ s s', (InsiderStore.upsertAll ⟨Transact.Table.empty, Transact.Table.empty⟩ [bulkRow, parsedRow]).transactions.get
        "F4TX:1" = some s ∧
      (InsiderStore.upsertAll ⟨Transact.Table.empty, Transact.Table.empty⟩
        [parsedRow, bulkRow, parsedRow]).transactions.get "F4TX:1" = some s' ∧
      SameRow s s' ∧ Complete [bulkRow, parsedRow] s := by
  refine merge_order_independent rfl (fun o ho => ?_) parsedRow_leads (fun _ => Iff.rfl) fun o => ?_
  · rcases mem_observations ho with rfl | rfl <;> rfl
  · simp only [List.mem_cons, List.not_mem_nil, or_false]
    exact ⟨fun h => h.elim .inr fun h => h, fun h => h.elim (fun h => .inr (.inl h)) .inl⟩

end TalonX.Insider
