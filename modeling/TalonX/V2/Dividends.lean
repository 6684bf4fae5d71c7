import TalonX.V2.CorporateActions

/-!
# The dividend lifecycle

- `catchUpRecentClosed`: accrues a dividend that was published after its position had settled;
- `settleReceivables`: credits `ACCRUED` rows whose payable date has come and that the evidence still confirms.

Both treat one row after the other, each in its own `try`.
-/

set_option autoImplicit false

namespace TalonX.V2

open Transact

/-- The catch-up looks at positions closed at most this many sessions ago. -/
def lateDividendLookbackSessions : ℕ := 5

/-- The dividends of a closed position that the catch-up accrues, given the evidence of its holding window. -/
def catchUpDividends (p : Position) (exitS : Date) (res : CASourceResult) : List CorporateActionEvent :=
  let entryS := p.entrySession
  if !res.ok then []
  else
    let window := res.events.filter fun e => inWindow entryS exitS e.exDate
    let divs := window.filter (·.kind = .cashDividend)
    if (res.conflicts.any fun c => inWindow entryS exitS c.exDate) || window.any (·.kind = .unsupported) then []
    else
      let states := [p.entryProvenance.bind Provenance.adjustmentState,
        (p.exit.bind ExitFields.exitProvenance).bind Provenance.adjustmentState]
      if states.any fun st => !st.any (· ∈ dividendSafeBases) then []
      else
        let splits := window.filter (·.kind.isSplit)
        divs.filter fun d => !splits.any (·.exDate = d.exDate)

/-- One position of the catch-up. -/
def catchUpPosition (cal : Calendar) (evidence : Evidence) (asOf : Date) (p : Position) : Prog Call Store Unit :=
  match p.status, p.exit with
  | .closed, some x =>
    if lateDividendLookbackSessions < cal.sessionsBetween x.exitSession asOf then pure ()
    else
      Prog.tryCatch (do
        let res ← Prog.read .lookup fun _ => evidence.fetch p.symbol p.entrySession x.exitSession
        Prog.forEach (catchUpDividends p x.exitSession res) fun d => do
          let _ ← Prog.txn (.recordDividendEntitlement p.positionId) fun s =>
            s.recordDividendEntitlement p.positionId d x.exitSession
          pure ()) (pure ())
  | _, _ => pure ()

def catchUpRecentClosed (cal : Calendar) (evidence : Evidence) (asOf : Date) : Prog Call Store Unit := do
  let ps ← Prog.read .read fun s => s.positions.rows
  Prog.forEach ps (catchUpPosition cal evidence asOf)

/-- The event that confirms an entitlement: the same content key, hence the same rate, in a fresh listing. -/
def confirmedBy (e : Entitlement) (res : CASourceResult) : Option CorporateActionEvent :=
  res.events.find? (·.actionKey = e.actionKey)

/-- Why a payable entitlement is not credited on this evidence. -/
def creditRefusal (e : Entitlement) (pay : Date) (asOf : Date) (res : CASourceResult) : Option DividendNote :=
  if !res.ok then some (.providerUnavailable asOf)
  else if res.conflicts.any (·.exDate = some e.exDate) then some (.conflictingEvidence asOf)
  else
    match confirmedBy e res with
    | none => some (.noLongerConfirmed asOf)
    | some x => if x.payableDate = some pay then none else some (.payableDateChanged asOf)

/-- One `ACCRUED` row of the receivables pass. -/
def settleReceivable (evidence : Evidence) (asOf : Date) (e : Entitlement) : Prog Call Store Unit :=
  match e.payableDate with
  | none => pure ()
  | some pay =>
    if asOf < pay then pure ()
    else
      Prog.tryCatch (do
        let res ← Prog.read .lookup fun _ => evidence.fetch e.symbol (e.exDate - 1) pay
        match creditRefusal e pay asOf res with
        | some note => Prog.write (.noteDividendCheck e.entitlementId) (·.noteDividendCheck e.entitlementId note)
        | none => do
          let _ ← Prog.txn (.creditDividend e.entitlementId) fun s => some (s.creditDividend e.entitlementId asOf)
          pure ()) (pure ())

def settleReceivables (evidence : Evidence) (asOf : Date) : Prog Call Store Unit := do
  let es ← Prog.read .read Store.accruedEntitlements
  Prog.forEach es (settleReceivable evidence asOf)

end TalonX.V2
