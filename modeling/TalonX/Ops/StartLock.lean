import Mathlib.Data.Rat.Defs
import Mathlib.Algebra.Order.Ring.Rat
import TalonX.Transact.Interleave

/-!
# The start lock of a ledger

`SingleWriterLock` on one lock path, as programs whose calls are the atomic steps on the file system and on the process
table.

- `LockFs`: the lock path, the files behind it, the temporary files, the process table, and what every instance believes;
- `ownerState`, `claimStaleForRemoval`, `acquire`, `rebindOwner`, `release`: the methods of an instance.

A claim file has a name of its own, so only its claimer sees it: the claim keeps the file it moved as a value. A text
that is empty, partly written or incomplete is no payload.
-/

set_option autoImplicit false

namespace TalonX.Ops

open Transact

variable {ι : Type} [DecidableEq ι]

/-! ## Files and processes -/

/-- The fields of a lock that decide anything; `ownerToken` is `none` when no instance of the run drew it. -/
structure LockPayload (ι : Type) where
  pid : Option ℕ
  createTime : Option ℚ
  ledgerKey : String
  ownerToken : Option (ι × ℕ)
  deriving DecidableEq

/-- A file: its payload, and the instance that created it and writes it. -/
structure LockFile (ι : Type) where
  content : Option (LockPayload ι)
  writer : Option ι

/-- The running processes, each with its create time when it can be read. -/
abbrev ProcTable := ℕ → Option (Option ℚ)

/-- `_PID_REUSE_TOLERANCE_S`. -/
def pidReuseTolerance : ℚ := 1

/-- `_pid_alive_matching`. -/
def pidAliveMatching (procs : ProcTable) (pid : ℕ) (createTime : Option ℚ) : Bool :=
  match procs pid, createTime with
  | none, _ => false
  | some _, none => true
  | some none, some _ => true
  | some (some now), some ct => |now - ct| ≤ pidReuseTolerance

/-- The recorded owner runs. -/
def LockPayload.alive (p : LockPayload ι) (procs : ProcTable) : Bool :=
  p.pid.any (pidAliveMatching procs · p.createTime)

structure LockFs (ι : Type) where
  lockPath : Option ℕ
  file : ℕ → LockFile ι
  nextFile : ℕ
  nextToken : ℕ
  /-- `<lock>.tmp<pid>`. -/
  tmp : ℕ → Option (LockPayload ι)
  procs : ProcTable
  /-- The payload of an instance with `_held`. -/
  held : ι → Option (LockPayload ι)

namespace LockFs

/-- A file system with an old lock file, or without one; no instance holds the lock. -/
def init (old : Option (LockPayload ι)) (procs : ProcTable) : LockFs ι where
  lockPath := old.map fun _ => 0
  file _ := ⟨old, none⟩
  nextFile := 1
  nextToken := 0
  tmp _ := none
  procs := procs
  held _ := none

variable (s : LockFs ι)

/-- The payload at the lock path. -/
def onDisk : Option (LockPayload ι) := s.lockPath.bind fun f => (s.file f).content

/-- `O_CREAT | O_EXCL` at the lock path; the token is the one drawn for the attempt. -/
def create (i : ι) : Option (ℕ × (ι × ℕ)) × LockFs ι :=
  match s.lockPath with
  | some _ => (none, s)
  | none =>
    (some (s.nextFile, (i, s.nextToken)),
      { s with
        lockPath := some s.nextFile, file := Function.update s.file s.nextFile ⟨none, some i⟩,
        nextFile := s.nextFile + 1, nextToken := s.nextToken + 1 })

omit [DecidableEq ι] in
theorem create_of_free {s : LockFs ι} {i : ι} (h : s.lockPath = none) :
    s.create i = (some (s.nextFile, (i, s.nextToken)),
      { s with
        lockPath := some s.nextFile, file := Function.update s.file s.nextFile ⟨none, some i⟩,
        nextFile := s.nextFile + 1, nextToken := s.nextToken + 1 }) := by
  rw [create, h]

omit [DecidableEq ι] in
theorem create_of_taken {s : LockFs ι} {i : ι} {f : ℕ} (h : s.lockPath = some f) : s.create i = (none, s) := by
  rw [create, h]

/-- The write through the descriptor of a created file. -/
def fill (f : ℕ) (p : LockPayload ι) : LockFs ι :=
  { s with file := Function.update s.file f { s.file f with content := some p } }

/-- `os.rename` of the lock path to a claim path. -/
def rename : LockFs ι := { s with lockPath := none }

/-- `os.replace` of the lock path by a temporary file. -/
def replace (tmpOf : ℕ) (p : LockPayload ι) : LockFs ι :=
  { s with
    lockPath := some s.nextFile, file := Function.update s.file s.nextFile ⟨some p, none⟩,
    nextFile := s.nextFile + 1, tmp := Function.update s.tmp tmpOf none }

def believe (i : ι) (p : Option (LockPayload ι)) : LockFs ι := { s with held := Function.update s.held i p }

end LockFs

/-- The atomic steps. -/
inductive LockCall (ι : Type)
  | exists
  | read
  | alive
  | rename
  | unlinkClaim
  | create
  | write (f : ℕ) (p : LockPayload ι)
  | restore (f : ℕ) (p : LockPayload ι)
  | own
  | createTime
  | rebindTime (p : LockPayload ι)
  | writeTmp (p : LockPayload ι)
  | replace (p : LockPayload ι)
  | unlink
  | drop
  | procs (table : ProcTable)

/-! ## Reading the lock -/

inductive RawLock (ι : Type)
  | absent
  | corrupt
  | ok (p : LockPayload ι)

/-- `_read_raw`: the file may be gone, or be another one, between its two steps. -/
def readRaw : Prog (LockCall ι) (LockFs ι) (RawLock ι) := do
  let present ← Prog.read .exists fun s => s.lockPath.isSome
  if present then
    Prog.tryCatch (Prog.read .read fun s => s.onDisk.elim .corrupt .ok) (pure .corrupt)
  else pure .absent

inductive OwnerState
  | free
  | live
  | stale
  | unknown

/-- `_owner_state`. -/
def ownerState (key : String) : Prog (LockCall ι) (LockFs ι) OwnerState := do
  let raw ← readRaw
  match raw with
  | .absent => pure .free
  | .corrupt => pure .unknown
  | .ok p =>
    if p.ledgerKey ≠ key then pure .stale
    else do
      let live ← Prog.read .alive fun s => p.alive s.procs
      pure (if live then .live else .stale)

/-! ## Breaking a stale lock -/

/-- The live lock that a claim moved is put back when the path is still free; either way the claim is refused. -/
def restoreClaimed (i : ι) (p : LockPayload ι) : Prog (LockCall ι) (LockFs ι) Bool := do
  let made ← Prog.txn .create fun s => some (s.create i)
  match made with
  | none => do
    Prog.write .unlinkClaim id
    Prog.raise
  | some (f, _) => do
    Prog.write (.restore f p) (·.fill f p)
    Prog.write .unlinkClaim id
    Prog.raise

/-- What is done with the claimed file: a payload of a live owner is restored, anything else is discarded. -/
def inspectClaimed (i : ι) (p : LockPayload ι) : Prog (LockCall ι) (LockFs ι) Bool := do
  let live ← Prog.tryCatch (Prog.read .alive fun s => p.alive s.procs) (pure false)
  if live then restoreClaimed i p
  else do
    Prog.write .unlinkClaim id
    pure true

/-- `_claim_stale_for_removal`. -/
def claimStaleForRemoval (i : ι) : Prog (LockCall ι) (LockFs ι) Bool := do
  let claimed ← Prog.tryCatch (Prog.txn .rename fun s => some (s.lockPath, s.rename)) (pure none)
  match claimed with
  | none => pure false
  | some f => do
    let content ← Prog.tryCatch (Prog.read .read fun s => (s.file f).content) (pure none)
    match content with
    | some p => inspectClaimed i p
    | none => do
      Prog.write .unlinkClaim id
      pure true

/-! ## Acquire, rebind, release -/

/-- The creation of a fresh lock; `again` when someone else created one first. -/
def createFresh (key : String) (pid : ℕ) (i : ι) (again : Prog (LockCall ι) (LockFs ι) Unit) :
    Prog (LockCall ι) (LockFs ι) Unit := do
  let createTime ← Prog.read .createTime fun s => (s.procs pid).join
  let made ← Prog.txn .create fun s => some (s.create i)
  match made with
  | none => again
  | some (f, token) =>
    let p : LockPayload ι := ⟨some pid, createTime, key, some token⟩
    Prog.write (.write f p) fun s => (s.fill f p).believe i (some p)

def acquireAttempt (key : String) (pid : ℕ) (i : ι) (force breakStale : Bool) :
    ℕ → Prog (LockCall ι) (LockFs ι) Unit
  | 0 => Prog.raise
  | n + 1 => do
    let again := acquireAttempt key pid i force breakStale n
    let state ← ownerState key
    match state with
    | .live => do
      let _ ← readRaw
      Prog.raise
    | .unknown => Prog.raise
    | .stale =>
      if breakStale || force then do
        let claimed ← claimStaleForRemoval i
        if claimed then createFresh key pid i again else again
      else Prog.raise
    | .free => createFresh key pid i again

/-- `acquire`, with its retry budget. -/
def acquire (key : String) (pid : ℕ) (i : ι) (force breakStale : Bool) : Prog (LockCall ι) (LockFs ι) Unit :=
  acquireAttempt key pid i force breakStale 8

/-- The replacement of the lock by a payload with another owner and the same token. -/
def rebindTo (pid : ℕ) (i : ι) (p : LockPayload ι) : Prog (LockCall ι) (LockFs ι) Unit := do
  Prog.write (.writeTmp p) fun s => { s with tmp := Function.update s.tmp pid (some p) }
  Prog.txn (.replace p) fun s => (s.tmp pid).map fun q => ((), (s.replace pid q).believe i (some p))

/-- `rebind_owner(pid=newPid, create_time=createTime)`. -/
def rebindOwner (pid : ℕ) (i : ι) (newPid : ℕ) (createTime : Option ℚ) : Prog (LockCall ι) (LockFs ι) Unit := do
  let own ← Prog.read .own (·.held i)
  match own, createTime with
  | none, _ => Prog.raise
  | some p, some ct => rebindTo pid i { p with pid := some newPid, createTime := some ct }
  | some p, none => do
    let ct ← Prog.read (.rebindTime p) fun s => (s.procs newPid).join
    rebindTo pid i { p with pid := some newPid, createTime := ct }

/-- `release`. -/
def release (i : ι) : Prog (LockCall ι) (LockFs ι) Unit := do
  let own ← Prog.read .own (·.held i)
  match own with
  | none => pure ()
  | some p => do
    let raw ← readRaw
    match raw with
    | .ok q =>
      if q.ownerToken = p.ownerToken then Prog.write .unlink fun s => s.rename.believe i none
      else Prog.write .drop (·.believe i none)
    | _ => Prog.write .drop (·.believe i none)

/-! ## Interleavings -/

/-- What an instance, or the operating system (`none`), may start. -/
inductive LockStarts (key : String) (pid : ι → ℕ) : Option ι → Prog (LockCall ι) (LockFs ι) Unit → Prop
  | acquire (i : ι) (force breakStale : Bool) : LockStarts key pid (some i) (acquire key (pid i) i force breakStale)
  | rebindOwner (i : ι) (newPid : ℕ) (createTime : Option ℚ) :
      LockStarts key pid (some i) (rebindOwner (pid i) i newPid createTime)
  | release (i : ι) : LockStarts key pid (some i) (release i)
  | processes (table : ProcTable) :
      LockStarts key pid none (Prog.write (.procs table) fun s => { s with procs := table })

end TalonX.Ops
