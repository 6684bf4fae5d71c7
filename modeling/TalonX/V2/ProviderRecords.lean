import Mathlib.Tactic.Linarith
import TalonX.V2.CorporateActions

/-!
# Provider records

`classify_alpaca_record`: one record of a provider listing becomes one typed event. What is not explicitly supported, or
is malformed, becomes an unsupported event.

- `CorporateActionEvent.Classified`: the key of an event is made of its content;
- `classifyAlpacaRecord_classified`: whatever the record says, its event is classified;
- `Evidence.Classified`: every source lists classified events only.
-/

set_option autoImplicit false

namespace TalonX.V2

/-- The fields of a record that are read, parsed; `none` when the field is missing or does not parse. -/
structure AlpacaRecord where
  id : String := ""
  exDate : Option Date := none
  effectiveDate : Option Date := none
  processDate : Option Date := none
  newRate : Option ℚ := none
  oldRate : Option ℚ := none
  rate : Option ℚ := none
  special : Bool := false
  isForeign : Bool := false
  payableDate : Option Date := none

/-- The first date field that parses. -/
def AlpacaRecord.date (r : AlpacaRecord) : Option Date := r.exDate <|> r.effectiveDate <|> r.processDate

/-- `_ALPACA_TYPES`. -/
def alpacaKind (providerType : String) : Option ActionKind :=
  if providerType = "forward_splits" then some .forwardSplit
  else if providerType = "reverse_splits" then some .reverseSplit
  else if providerType = "cash_dividends" then some .cashDividend
  else none

def unsupportedEvent (symbol : Symbol) (providerType source : String) (r : AlpacaRecord) : CorporateActionEvent :=
  { actionKey := .unsupported symbol.toUpper providerType r.date r.id, symbol := symbol.toUpper, kind := .unsupported
    providerType := providerType, exDate := r.date, ratio := none, cashRate := none, source := source
    providerId := r.id, malformed := false, payableDate := none }

def malformedEvent (symbol : Symbol) (providerType source : String) (r : AlpacaRecord) : CorporateActionEvent :=
  { unsupportedEvent symbol providerType source r with
    actionKey := .malformed symbol.toUpper providerType r.date r.id, malformed := true }

/-- The event of a split with this ratio. -/
def splitEvent (symbol : Symbol) (providerType source providerId : String) (kind : ActionKind) (ex : Date)
    (ratio : PosRat) : CorporateActionEvent :=
  { actionKey := .split symbol.toUpper ex ratio.1, symbol := symbol.toUpper, kind := kind, providerType := providerType
    exDate := some ex, ratio := some ratio, cashRate := none, source := source, providerId := providerId
    malformed := false, payableDate := none }

def dividendEvent (symbol : Symbol) (providerType source providerId : String) (ex : Date) (rate : PosRat)
    (payableDate : Option Date) : CorporateActionEvent :=
  { actionKey := .div symbol.toUpper ex rate.1, symbol := symbol.toUpper, kind := .cashDividend
    providerType := providerType, exDate := some ex, ratio := none, cashRate := some rate, source := source
    providerId := providerId, malformed := false, payableDate := payableDate }

/-- A split needs an ex-date and positive rates, and its ratio must have the direction of its kind. -/
def classifySplitRecord (symbol : Symbol) (providerType source : String) (kind : ActionKind) (r : AlpacaRecord) :
    CorporateActionEvent :=
  match r.exDate, r.newRate, r.oldRate with
  | some ex, some new, some old =>
    if h : 0 < new ∧ 0 < old then
      if new / old = 1 || (decide (kind = .forwardSplit) != decide (1 < new / old)) then
        malformedEvent symbol providerType source r
      else splitEvent symbol providerType source r.id kind ex ⟨new / old, div_pos h.1 h.2⟩
    else malformedEvent symbol providerType source r
  | _, _, _ => malformedEvent symbol providerType source r

/-- Ordinary cash only. -/
def classifyDividendRecord (symbol : Symbol) (providerType source : String) (r : AlpacaRecord) :
    CorporateActionEvent :=
  match r.exDate, r.rate with
  | some ex, some rate =>
    if h : 0 < rate then
      if r.special || r.isForeign then malformedEvent symbol providerType source r
      else dividendEvent symbol providerType source r.id ex ⟨rate, h⟩ r.payableDate
    else malformedEvent symbol providerType source r
  | _, _ => malformedEvent symbol providerType source r

def classifyAlpacaRecord (symbol : Symbol) (providerType source : String) (r : AlpacaRecord) : CorporateActionEvent :=
  match alpacaKind providerType with
  | none => unsupportedEvent symbol providerType source r
  | some .cashDividend => classifyDividendRecord symbol providerType source r
  | some kind => classifySplitRecord symbol providerType source kind r

/-- The key of a supported event is made of its content, and an unsupported event has a key of its own kind. -/
def CorporateActionEvent.Classified (e : CorporateActionEvent) : Prop :=
  match e.kind with
  | .cashDividend => ∃ ex rate, e.exDate = some ex ∧ e.cashRate = some rate ∧ e.actionKey = .div e.symbol ex rate.1
  | .unsupported => ∀ sym ex q, e.actionKey ≠ .split sym ex q ∧ e.actionKey ≠ .div sym ex q
  | _ => ∃ ex ratio, e.exDate = some ex ∧ e.ratio = some ratio ∧ e.actionKey = .split e.symbol ex ratio.1

theorem malformedEvent_classified (symbol : Symbol) (providerType source : String) (r : AlpacaRecord) :
    (malformedEvent symbol providerType source r).Classified := fun _ _ _ => ⟨nofun, nofun⟩

theorem classifySplitRecord_classified (symbol : Symbol) (providerType source : String) {kind : ActionKind}
    (hk : kind.isSplit = true) (r : AlpacaRecord) :
    (classifySplitRecord symbol providerType source kind r).Classified := by
  unfold classifySplitRecord
  split
  · rename_i ex new old _ _ _
    split
    · rename_i hpos
      split
      · exact malformedEvent_classified _ _ _ _
      · cases kind with
        | forwardSplit => exact ⟨ex, ⟨new / old, div_pos hpos.1 hpos.2⟩, rfl, rfl, rfl⟩
        | reverseSplit => exact ⟨ex, ⟨new / old, div_pos hpos.1 hpos.2⟩, rfl, rfl, rfl⟩
        | cashDividend => cases hk
        | unsupported => cases hk
    · exact malformedEvent_classified _ _ _ _
  · exact malformedEvent_classified _ _ _ _

theorem classifyDividendRecord_classified (symbol : Symbol) (providerType source : String) (r : AlpacaRecord) :
    (classifyDividendRecord symbol providerType source r).Classified := by
  unfold classifyDividendRecord
  split
  · rename_i ex rate _ _
    split
    · rename_i hpos
      split
      · exact malformedEvent_classified _ _ _ _
      · exact ⟨ex, ⟨rate, hpos⟩, rfl, rfl, rfl⟩
    · exact malformedEvent_classified _ _ _ _
  · exact malformedEvent_classified _ _ _ _

theorem classifyAlpacaRecord_classified (symbol : Symbol) (providerType source : String) (r : AlpacaRecord) :
    (classifyAlpacaRecord symbol providerType source r).Classified := by
  unfold classifyAlpacaRecord
  split
  · exact fun _ _ _ => ⟨nofun, nofun⟩
  · exact classifyDividendRecord_classified _ _ _ _
  · rename_i kind hnot hkind
    refine classifySplitRecord_classified symbol providerType source ?_ r
    unfold alpacaKind at hkind
    split at hkind
    · obtain rfl := Option.some.inj hkind
      rfl
    split at hkind
    · obtain rfl := Option.some.inj hkind
      rfl
    split at hkind
    · exact absurd (Option.some.inj hkind).symm (fun h => hnot (h ▸ rfl))
    · cases hkind

/-! ## Evidence -/

/-- The events of a listing. -/
def SourceAnswer.events : SourceAnswer → List CorporateActionEvent
  | .unavailable _ => []
  | .listing _ events => events

/-- Every source lists classified events only. -/
def Evidence.Classified (ev : Evidence) : Prop :=
  ∀ symbol start stop, ∀ a ∈ ev symbol start stop, ∀ e ∈ a.events, e.Classified

@[simp] theorem mem_orderEvents {es : List CorporateActionEvent} {e : CorporateActionEvent} :
    e ∈ orderEvents es ↔ e ∈ es := (List.perm_insertionSort _ es).mem_iff

theorem SourceAnswer.mem_of_mem_result {a : SourceAnswer} {e : CorporateActionEvent} (h : e ∈ a.result.events) :
    e ∈ a.events := by
  cases a with
  | unavailable source => exact h
  | listing source events => exact mem_of_mem_firstOccurrences (mem_orderEvents.1 h)

theorem SourceAnswer.exists_result {a : SourceAnswer} {e : CorporateActionEvent} (h : e ∈ a.events) :
    ∃ e' ∈ a.result.events, e'.actionKey = e.actionKey := by
  cases a with
  | unavailable source => cases h
  | listing source events =>
    have hfirst : ∃ y ∈ firstOccurrences CorporateActionEvent.actionKey events, y.actionKey = e.actionKey :=
      exists_firstOccurrences h
    obtain ⟨y, hy, hye⟩ := hfirst
    exact ⟨y, mem_orderEvents.2 hy, hye⟩

/-- A merged event was listed by some source, and every listed key is among the merged events. -/
theorem Evidence.fetch_events {ev : Evidence} {symbol : Symbol} {start stop : Date}
    (hok : (ev.fetch symbol start stop).ok = true) :
    (∀ e ∈ (ev.fetch symbol start stop).events, ∃ a ∈ ev symbol start stop, e ∈ a.events) ∧
      ∀ a ∈ ev symbol start stop, ∀ e ∈ a.events,
        ∃ e' ∈ (ev.fetch symbol start stop).events, e'.actionKey = e.actionKey := by
  unfold Evidence.fetch combineSources at hok ⊢
  split at hok
  · cases hok
  rename_i hdown
  rw [if_neg hdown]
  constructor
  · intro e he
    have hmerged := mem_of_mem_firstOccurrences (mem_orderEvents.1 he)
    obtain ⟨r, hr, her⟩ := List.mem_flatMap.1 hmerged
    obtain ⟨a, ha, rfl⟩ := List.mem_map.1 hr
    exact ⟨a, ha, SourceAnswer.mem_of_mem_result her⟩
  · intro a ha e he
    obtain ⟨e', he', hkey⟩ := SourceAnswer.exists_result he
    have hfirst : ∃ y ∈ firstOccurrences CorporateActionEvent.actionKey
        (((ev symbol start stop).map SourceAnswer.result).flatMap CASourceResult.events), y.actionKey = e'.actionKey :=
      exists_firstOccurrences (List.mem_flatMap.2 ⟨a.result, List.mem_map_of_mem ha, he'⟩)
    obtain ⟨y, hy, hye⟩ := hfirst
    exact ⟨y, mem_orderEvents.2 hy, hye.trans hkey⟩

end TalonX.V2
