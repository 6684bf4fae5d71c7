import TalonX.Transact.Table
import TalonX.V2.Calendar

/-!
# Account blocks

The two tables behind the account-wide admission gate, embedded in every account store: a block for each account, reason
and reference, and the append-only record of the clearance attempts. Every function works inside its caller's
transaction and takes the reading of the wall clock as an argument.

- `BlockTables.recordBlock`: a new block, the refresh of an active one, or the return of a cleared one;
- `BlockTables.blockedReason`: the gate;
- `BlockTables.attemptClearance`: one clearance row, and the block's new status when the attempt is allowed.
-/

set_option autoImplicit false

namespace TalonX.Ops

open Transact V2

inductive BlockReason
  | exitUnresolved
  | ledgerMismatch
  | cashDeficit
  | identityMismatch
  deriving DecidableEq, Repr

inductive BlockStatus
  | active
  | cleared
  deriving DecidableEq, Repr

/-- The content `block_id` hashes. -/
abbrev BlockId := String × BlockReason × String

structure Block where
  accountId : String
  reasonType : BlockReason
  reference : String
  status : BlockStatus
  detectedAtUtc : Instant
  updatedAtUtc : Instant
  deriving DecidableEq

def Block.blockId (b : Block) : BlockId := (b.accountId, b.reasonType, b.reference)

inductive ClearanceOutcome
  | cleared
  | refused
  deriving DecidableEq, Repr

structure Clearance where
  blockId : BlockId
  operatorId : String
  reason : String
  evidenceRef : String
  outcome : ClearanceOutcome
  attemptedAtUtc : Instant
  deriving DecidableEq

/-- The content `clearance_id` hashes. -/
def Clearance.clearanceId (c : Clearance) : BlockId × String × Instant := (c.blockId, c.operatorId, c.attemptedAtUtc)

structure BlockTables where
  blocks : Table Block.blockId
  clearances : Table Clearance.clearanceId

/-- What an operator hands to `clear_block`. -/
structure ClearanceRequest where
  blockId : BlockId
  operatorId : String
  reason : String
  evidenceRef : String
  deriving DecidableEq, Repr

namespace BlockTables

def empty : BlockTables := ⟨Table.empty, Table.empty⟩

variable (t : BlockTables)

/-! ## Recording -/

/-- The `DO UPDATE SET` of a recorded block. -/
def renew (now : Instant) (b : Block) : Block :=
  { b with
    updatedAtUtc := now, status := .active
    detectedAtUtc := if b.status = .active then b.detectedAtUtc else now }

def recordBlock (now : Instant) (accountId : String) (reasonType : BlockReason) (reference : String) : BlockTables :=
  { t with blocks := t.blocks.upsert ⟨accountId, reasonType, reference, .active, now, now⟩ (renew now) fun _ => rfl }

/-! ## Reading -/

/-- The blocks of an account with `status='ACTIVE'`. -/
def activeBlocks (accountId : String) : List Block :=
  t.blocks.rows.filter fun b => b.accountId = accountId && b.status = .active

/-- `None`, or the reason and the reference of every active block of the account. -/
def blockedReason (accountId : String) : Option (List (BlockReason × String)) :=
  match t.activeBlocks accountId with
  | [] => none
  | bs => some (bs.map fun b => (b.reasonType, b.reference))

def getBlock (k : BlockId) : Option Block := t.blocks.get k

/-! ## Clearing -/

/-- The row that an attempt appends; the texts are cut to 500 characters. -/
def clearance (now : Instant) (q : ClearanceRequest) (allow : Bool) : Clearance where
  blockId := q.blockId
  operatorId := q.operatorId
  reason := String.ofList (q.reason.toList.take 500)
  evidenceRef := String.ofList (q.evidenceRef.toList.take 500)
  outcome := if allow then .cleared else .refused
  attemptedAtUtc := now

def clear (now : Instant) (b : Block) : Block := { b with status := .cleared, updatedAtUtc := now }

theorem clear_blockId (now : Instant) (b : Block) : (clear now b).blockId = b.blockId := rfl

/-- Raises without an operator, a reason and evidence, when there is no such block, and when the row's id is taken. -/
def attemptClearance (now : Instant) (q : ClearanceRequest) (allow : Bool) : Option (Clearance × BlockTables) :=
  if q.operatorId = "" ∨ q.reason = "" ∨ q.evidenceRef = "" then none
  else
    match t.getBlock q.blockId with
    | none => none
    | some _ =>
      match t.clearances.insert? (clearance now q allow) with
      | none => none
      | some cs =>
        some (clearance now q allow,
          { t with
            clearances := cs
            blocks := if allow then t.blocks.update (·.blockId = q.blockId) (clear now) (clear_blockId now) else t.blocks })

/-! ## What the operations guarantee -/

variable {t : BlockTables} {now : Instant} {accountId reference : String} {reasonType : BlockReason}

/-- The gate is open exactly when the account has no active block. -/
theorem blockedReason_eq_none :
    t.blockedReason accountId = none ↔ ∀ b ∈ t.blocks.rows, b.accountId = accountId → b.status ≠ .active := by
  have hnone : t.blockedReason accountId = none ↔ t.activeBlocks accountId = [] := by
    unfold blockedReason
    split
    · rename_i h
      simp [h]
    · rename_i h
      exact ⟨nofun, fun hnil => (h hnil).elim⟩
  rw [hnone, activeBlocks, List.filter_eq_nil_iff]
  simp

theorem getBlock_recordBlock_self :
    (t.recordBlock now accountId reasonType reference).getBlock (accountId, reasonType, reference) =
      some (((t.getBlock (accountId, reasonType, reference)).map (renew now)).getD
        ⟨accountId, reasonType, reference, .active, now, now⟩) := Table.get_upsert_self

theorem getBlock_recordBlock_of_ne {k : BlockId} (h : k ≠ (accountId, reasonType, reference)) :
    (t.recordBlock now accountId reasonType reference).getBlock k = t.getBlock k := Table.get_upsert_of_ne h

theorem renew_of_active {b : Block} (h : b.status = .active) : renew now b = { b with updatedAtUtc := now } := by
  rw [renew, if_pos h, ← h]

/-- A recorded block is active afterwards. -/
theorem active_recordBlock :
    ∃ b, (t.recordBlock now accountId reasonType reference).getBlock (accountId, reasonType, reference) = some b ∧
      b.status = .active := by
  refine ⟨_, getBlock_recordBlock_self, ?_⟩
  cases t.getBlock (accountId, reasonType, reference) with
  | none => rfl
  | some b => rfl

/-- What an attempt that does not raise leaves. -/
theorem attemptClearance_cases {q : ClearanceRequest} {allow : Bool} {c : Clearance} {t' : BlockTables}
    (h : t.attemptClearance now q allow = some (c, t')) :
    (q.operatorId ≠ "" ∧ q.reason ≠ "" ∧ q.evidenceRef ≠ "") ∧ (∃ b, t.getBlock q.blockId = some b) ∧
      c = clearance now q allow ∧ t'.clearances.rows = t.clearances.rows ++ [c] ∧
      (∀ d ∈ t.clearances.rows, d.clearanceId ≠ c.clearanceId) ∧
      (∀ k, k ≠ q.blockId → t'.getBlock k = t.getBlock k) ∧
      t'.getBlock q.blockId = (t.getBlock q.blockId).map (if allow then clear now else id) := by
  unfold attemptClearance at h
  split at h
  · cases h
  rename_i htexts
  split at h
  · cases h
  rename_i b hb
  split at h
  · cases h
  rename_i cs hcs
  simp only [Option.some.injEq, Prod.mk.injEq] at h
  obtain ⟨rfl, rfl⟩ := h
  obtain ⟨hrows, hfree⟩ := Table.insert?_eq_some hcs
  refine ⟨by simpa only [not_or] using htexts, ⟨b, hb⟩, rfl, hrows, hfree, fun k hk => ?_, ?_⟩
  · cases allow with
    | false => rfl
    | true =>
      have hget : (t.blocks.update (·.blockId = q.blockId) (clear now) (clear_blockId now)).get k = t.blocks.get k :=
        Table.get_update_of_ne hk
      exact hget
  · cases allow with
    | false => exact (congrFun Option.map_id _).symm
    | true =>
      have hget : (t.blocks.update (·.blockId = q.blockId) (clear now) (clear_blockId now)).get q.blockId =
          (t.blocks.get q.blockId).map (clear now) := Table.get_update_self
      exact hget

/-- When an attempt raises. -/
theorem attemptClearance_eq_none {q : ClearanceRequest} {allow : Bool} :
    t.attemptClearance now q allow = none ↔ (q.operatorId = "" ∨ q.reason = "" ∨ q.evidenceRef = "") ∨
      t.getBlock q.blockId = none ∨ ∃ d ∈ t.clearances.rows, d.clearanceId = (q.blockId, q.operatorId, now) := by
  unfold attemptClearance
  split
  · rename_i h
    simp [h]
  rename_i h
  split
  · rename_i hb
    simp [hb]
  rename_i b hb
  have hins : t.clearances.insert? (clearance now q allow) = none ↔
      ∃ d ∈ t.clearances.rows, d.clearanceId = (q.blockId, q.operatorId, now) := by
    unfold Table.insert?
    split
    · rename_i hk
      exact ⟨fun _ => List.mem_map.1 hk, fun _ => rfl⟩
    · rename_i hk
      exact ⟨by rintro ⟨⟩, fun hd => (hk (List.mem_map.2 hd)).elim⟩
  simp only [h, hb, reduceCtorEq, false_or]
  rw [← hins]
  split
  · rename_i hn
    simp [hn]
  · rename_i cs hs
    simp [hs]

end BlockTables

end TalonX.Ops
