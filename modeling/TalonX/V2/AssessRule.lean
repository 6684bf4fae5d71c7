import TalonX.Transact.Hoare
import TalonX.V2.SplitTrail

/-!
# A rule for assessments

What is true of a ledger whatever is assessed: a block row changes nothing that matters, and the actions of another
position are none of this one's business. Only the cleared assessment of the position itself has to be looked at.

- `AssessStable`: the conditions on an invariant about one position;
- `wp_assessPosition_rule`: every assessment keeps it, and one that allows settlement has written its actions.
-/

set_option autoImplicit false

namespace TalonX.V2

open Transact

/-- Calls may raise and the process may crash anywhere; `I` is kept. -/
def keepsInv (I : Store → Prop) : Contract Call Store where
  commit := fun _ s s' => I s → I s'
  mayFault := fun _ _ => True
  atCrash := I

/-- An invariant about the position `p` that neither a block row nor the actions of another position touch. -/
structure AssessStable (I : Store → Prop) (p : Position) : Prop where
  mem : ∀ {s : Store}, I s → p ∈ s.positions.rows
  block : ∀ {s : Store} (pid : ℕ) (key : ActionKey) (code : VerdictCode), I s →
    I ((s.clearBlockedActionRows pid).recordBlockedAction pid key code)
  other : ∀ {s : Store} {row : Position} (a : Assessed), row.positionId ≠ p.positionId → I s → I (applyAssessed row a s)

variable {I W : Store → Prop} {p : Position} {s : Store}

theorem wp_persistBlock_rule (hst : AssessStable I p) {pid : ℕ} {b : Blocked} (hb : b.Refuses) (h : I s) :
    wp (keepsInv I) (persistBlock pid b) (fun v t => I t ∧ v.settleOk = false) I s := by
  unfold persistBlock
  split
  · exact ⟨h, hb.settleOk⟩
  · rename_i key _
    exact wp_bind (wp_write (fun _ => hst.block pid key b.code h) ⟨hst.block pid key b.code h, hb.settleOk⟩
      fun _ => ⟨h, h⟩)

theorem wp_assessPosition_rule (hst : AssessStable I p) (hopen : p.status = .open) {evidence : Evidence} {pid : ℕ}
    {asOf : Date} {fill : Option ExitFill} (h : I s)
    (hown : ∀ a ds, pid = p.positionId →
      assessEvidence p (evidence.fetch p.symbol p.entrySession (assessStop asOf fill)) asOf fill = .ok a →
      assessTrail p (s.positionActionTrail p.positionId) a fill = .ok ds →
        I (applyAssessed p a s) ∧ W (applyAssessed p a s)) :
    wp (keepsInv I) (assessPosition evidence pid asOf fill)
      (fun v t => I t ∧ (pid = p.positionId → v.settleOk = true → W t)) I s := by
  have hstay : I s ∧ I s := ⟨h, h⟩
  have refused : ∀ {v : Verdict} {t : Store}, I t ∧ v.settleOk = false →
      I t ∧ (pid = p.positionId → v.settleOk = true → W t) :=
    fun hv => ⟨hv.1, fun _ hok => absurd (hv.2.symm.trans hok) Bool.false_ne_true⟩
  have hp : s.positionById p.positionId = some p := SeqTable.byId_eq_some.2 ⟨hst.mem h, rfl⟩
  refine wp_bind (wp_read (fun h => h) ?_ fun _ => hstay)
  cases hrow : s.positionById pid with
  | none =>
    refine ⟨h, fun hid => ?_⟩
    rw [hid, hp] at hrow
    cases hrow
  | some row =>
    obtain ⟨hmem, hid⟩ := SeqTable.byId_eq_some.1 hrow
    have hrow_eq : pid = p.positionId → row = p := fun he => s.positions.eq_of_id hmem (hst.mem h) (hid.trans he)
    dsimp only
    split
    · rename_i hnot
      refine ⟨h, fun he => ?_⟩
      rw [hrow_eq he] at hnot
      exact absurd hopen hnot
    refine wp_bind (wp_read (fun h => h) ?_ fun _ => hstay)
    split
    · rename_i b hb
      exact wp_mono (fun _ _ => refused) (fun _ h => h) (wp_persistBlock_rule hst (assessEvidence_error hb) h)
    rename_i a ha
    refine wp_bind (wp_read (fun h => h) ?_ fun _ => hstay)
    split
    · rename_i b hb
      exact wp_mono (fun _ _ => refused) (fun _ h => h) (wp_persistBlock_rule hst (assessTrail_error hb) h)
    rename_i eligible ht
    -- the transaction of the cleared assessment, of this position or of another
    have hkept : I (applyAssessed row a s) ∧ (pid = p.positionId → W (applyAssessed row a s)) := by
      by_cases he : pid = p.positionId
      · obtain rfl := hrow_eq he
        obtain ⟨hI, hW⟩ := hown a eligible he ha ht
        exact ⟨hI, fun _ => hW⟩
      · exact ⟨hst.other a (hid ▸ he) h, fun hc => absurd hc he⟩
    exact wp_bind (wp_write (fun _ => hkept.1) (wp_bind (wp_read (fun h => h)
      ⟨hkept.1, fun he _ => hkept.2 he⟩ fun _ => ⟨hkept.1, hkept.1⟩)) fun _ => hstay)

end TalonX.V2
