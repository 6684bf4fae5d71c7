import TalonX.V2.Service

/-!
# Campaign cutover

`classifyAndCancelPendingAtCutover`: every intent that was `PENDING` when the cutover listed them is cancelled, expired
or retained, each in a commit of its own, and the run is logged.
-/

set_option autoImplicit false

namespace TalonX.V2

open Transact

structure CutoverInput where
  cutoverId : String
  asOfSession : Date
  maxEntryStalenessSessions : ℕ
  live : Bool
  now : Instant

/-- One listed intent. -/
def classifyIntent (cal : Calendar) (c : CutoverInput) (r : CutoverRecord) (it : EntryIntent) :
    Prog Call Store CutoverRecord :=
  if c.asOfSession < it.targetEntrySession then do
    markIntent it .cancelledCutover
    pure { r with cancelled := r.cancelled ++ [it.intentId] }
  else do
    let passed ← Prog.ofOption (cal.recoveryDeadlinePassed it.targetEntrySession c.maxEntryStalenessSessions
      c.asOfSession c.live c.now)
    if passed then do
      markIntent it .expiredRecoveryDeadline
      pure { r with expired := r.expired ++ [it.intentId] }
    else pure { r with retained := r.retained ++ [it.intentId] }

def classifyAndCancelPendingAtCutover (cal : Calendar) (c : CutoverInput) : Prog Call Store Unit := do
  let pending ← Prog.read .read Store.pendingEntryIntents
  let r ← Prog.foldEach pending ⟨c.cutoverId, c.asOfSession, [], [], []⟩ (classifyIntent cal c)
  Prog.write .recordCutover (·.recordCutover r)

/-! ## What a process of the campaign runs -/

/-- A tick of the service, or a cutover. -/
inductive Job
  | tick (i : TickInput)
  | cutover (c : CutoverInput)

def Job.prog (cal : Calendar) (cfg : V2Config) : Job → Prog Call Store Unit
  | .tick i => TalonX.V2.tick cal cfg i
  | .cutover c => classifyAndCancelPendingAtCutover cal c

end TalonX.V2
