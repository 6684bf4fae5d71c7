import TalonX.Transact.Guarded

/-!
# One file, several connections

A database file in write-ahead-log mode under the locking of the engine: a statement that reads takes no lock and sees
the last commit, or the writes of its own open transaction; the first statement that writes takes the file's only write
lock, and its connection holds it up to the commit.

- `WalFile ι δ`: what is committed, and the open write transaction with the file as it sees it;
- `WalFile.view`, `put`, `commit`, `rollback`: what the statements of the connection `i` do to the file;
- `select`, `write`, `attempt`, `doCommit`, `doRollback`: the statements as calls of a program;
- `WalFile.Frame`: no statement touches what another connection holds.
-/

set_option autoImplicit false

namespace Transact

variable {ι δ ℓ α β : Type}

structure WalFile (ι δ : Type) where
  db : δ
  /-- The connection that holds the write lock, and the file as its transaction sees it. -/
  writer : Option (ι × δ)

namespace WalFile

variable [DecidableEq ι]

/-- The file as the statements of connection `i` see it. -/
def view (f : WalFile ι δ) (i : ι) : δ :=
  match f.writer with
  | some (j, w) => if j = i then w else f.db
  | none => f.db

def put (f : WalFile ι δ) (i : ι) (w : δ) : WalFile ι δ := { f with writer := some (i, w) }

def commit (f : WalFile ι δ) (i : ι) : WalFile ι δ :=
  match f.writer with
  | some (j, w) => if j = i then ⟨w, none⟩ else f
  | none => f

def rollback (f : WalFile ι δ) (i : ι) : WalFile ι δ :=
  match f.writer with
  | some (j, _) => if j = i then ⟨f.db, none⟩ else f
  | none => f

omit [DecidableEq ι] in
/-- Connection `i` has no transaction open. -/
def Idle (i : ι) (f : WalFile ι δ) : Prop := ∀ w, f.writer ≠ some (i, w)

omit [DecidableEq ι] in
/-- The write lock is free, or `i` holds it. -/
def CanWrite (i : ι) (f : WalFile ι δ) : Prop := ∀ j w, f.writer = some (j, w) → j = i

instance decidableIdle (i : ι) (f : WalFile ι δ) : Decidable (f.Idle i) :=
  decidable_of_iff (f.writer.all fun w => w.1 ≠ i) (by
    cases h : f.writer with
    | none => simp [Idle, h]
    | some w => simp [Idle, h, Prod.ext_iff])

instance decidableCanWrite (i : ι) (f : WalFile ι δ) : Decidable (f.CanWrite i) :=
  decidable_of_iff (f.writer.all fun w => w.1 = i) (by
    cases h : f.writer with
    | none => simp [CanWrite, h]
    | some w => simp [CanWrite, h, Prod.ext_iff])

/-- What `i` does to the file leaves the open transactions of the others alone. -/
structure Frame (i : ι) (f f' : WalFile ι δ) : Prop where
  idle : ∀ j, j ≠ i → f.Idle j → f'.Idle j
  held : ∀ j w, j ≠ i → f.writer = some (j, w) → f' = f

variable {f f' : WalFile ι δ} {i : ι} {w : δ}

omit [DecidableEq ι] in
@[simp] theorem db_put (f : WalFile ι δ) (i : ι) (w : δ) : (f.put i w).db = f.db := rfl

theorem view_of_writer (h : f.writer = some (i, w)) : f.view i = w := by
  unfold view
  rw [h]
  exact if_pos rfl

theorem view_of_idle (h : f.Idle i) : f.view i = f.db := by
  unfold view
  split
  · rename_i j w hw
    refine if_neg ?_
    rintro rfl
    exact h w hw
  · rfl

theorem commit_of_writer (h : f.writer = some (i, w)) : f.commit i = ⟨w, none⟩ := by
  unfold commit
  rw [h]
  exact if_pos rfl

theorem commit_of_idle (h : f.Idle i) : f.commit i = f := by
  unfold commit
  split
  · rename_i j w hw
    refine if_neg ?_
    rintro rfl
    exact h w hw
  · rfl

theorem rollback_db (f : WalFile ι δ) (i : ι) : (f.rollback i).db = f.db := by
  unfold rollback
  split
  · split <;> rfl
  · rfl

omit [DecidableEq ι] in
theorem Frame.refl (i : ι) (f : WalFile ι δ) : Frame i f f := ⟨fun _ _ h => h, fun _ _ _ _ => rfl⟩

omit [DecidableEq ι] in
theorem frame_put (h : f.CanWrite i) (w : δ) : Frame i f (f.put i w) where
  idle j hj _ w' hw := by
    obtain ⟨rfl, -⟩ := Prod.mk.inj (Option.some.inj hw)
    exact hj rfl
  held j w' hj hw := (hj (h j w' hw)).elim

theorem frame_commit (f : WalFile ι δ) (i : ι) : Frame i f (f.commit i) := by
  unfold commit
  split
  · rename_i j w hw
    split
    · rename_i hj
      refine ⟨fun k hk _ => nofun, fun k v hk hv => ?_⟩
      rw [hw] at hv
      obtain ⟨rfl, -⟩ := Prod.mk.inj (Option.some.inj hv)
      exact (hk hj).elim
    · exact .refl i f
  · exact .refl i f

theorem frame_rollback (f : WalFile ι δ) (i : ι) : Frame i f (f.rollback i) := by
  unfold rollback
  split
  · rename_i j w hw
    split
    · rename_i hj
      refine ⟨fun k hk _ => nofun, fun k v hk hv => ?_⟩
      rw [hw] at hv
      obtain ⟨rfl, -⟩ := Prod.mk.inj (Option.some.inj hv)
      exact (hk hj).elim
    · exact .refl i f
  · exact .refl i f

/-! ## Statements -/

/-- A statement that reads. -/
def select (l : ℓ) (i : ι) (g : δ → α) : Prog ℓ (WalFile ι δ) α := Prog.read l fun f => g (f.view i)

/-- A statement that writes. -/
def write (l : ℓ) (i : ι) (g : δ → δ) : Prog ℓ (WalFile ι δ) Unit := Prog.write l fun f => f.put i (g (f.view i))

/-- A statement that writes unless a constraint forbids it; the transaction stays open when it raises. -/
def attempt (l : ℓ) (i : ι) (g : δ → Option δ) : Prog ℓ (WalFile ι δ) Unit :=
  .call l (fun f => f.put i ((g (f.view i)).getD (f.view i)))
    (fun f => if (g (f.view i)).isSome then .ret () else .raise) .raise

def doCommit (l : ℓ) (i : ι) : Prog ℓ (WalFile ι δ) Unit := Prog.write l (·.commit i)

def doRollback (l : ℓ) (i : ι) : Prog ℓ (WalFile ι δ) Unit := Prog.write l (·.rollback i)

/-! ## A connection that runs alone -/

@[simp] theorem view_put (f : WalFile ι δ) (i : ι) (w : δ) : (f.put i w).view i = w := view_of_writer rfl

omit [DecidableEq ι] in
@[simp] theorem put_put (f : WalFile ι δ) (i : ι) (w w' : δ) : (f.put i w).put i w' = f.put i w' := rfl

@[simp] theorem commit_put (f : WalFile ι δ) (i : ι) (w : δ) : (f.put i w).commit i = ⟨w, none⟩ := commit_of_writer rfl

@[simp] theorem view_closed (s : δ) (i : ι) : (⟨s, none⟩ : WalFile ι δ).view i = s := rfl

theorem exec_select_bind {l : ℓ} {g : δ → α} {k : α → Prog ℓ (WalFile ι δ) β} (f : WalFile ι δ) :
    (exec ((select l i g).bind k) [] f).2 = (exec (k (g (f.view i))) [] f).2 := rfl

/-- Outside a transaction. -/
theorem exec_select_closed {l : ℓ} {g : δ → α} {k : α → Prog ℓ (WalFile ι δ) β} (s : δ) :
    (exec ((select l i g).bind k) [] ⟨s, none⟩).2 = (exec (k (g s)) [] ⟨s, none⟩).2 := rfl

theorem exec_write_bind {l : ℓ} {g : δ → δ} {k : Unit → Prog ℓ (WalFile ι δ) β} (f : WalFile ι δ) :
    (exec ((write l i g).bind k) [] f).2 = (exec (k ()) [] (f.put i (g (f.view i)))).2 := rfl

theorem exec_commit_bind {l : ℓ} {k : Unit → Prog ℓ (WalFile ι δ) β} (f : WalFile ι δ) :
    (exec ((doCommit l i).bind k) [] f).2 = (exec (k ()) [] (f.commit i)).2 := rfl

theorem exec_attempt_bind {l : ℓ} {g : δ → Option δ} {k : Unit → Prog ℓ (WalFile ι δ) β}
    (h : g (f.view i) = some w) :
    (exec ((attempt l i g).bind k) [] f).2 = (exec (k ()) [] (f.put i w)).2 := by
  simp [attempt, Prog.bind, exec, h]

end WalFile

end Transact
