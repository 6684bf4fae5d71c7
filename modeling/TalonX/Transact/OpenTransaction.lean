import TalonX.Transact.WalFile

/-!
# A connection that has the file to itself

The one connection of a file may have left a transaction open. What its programs see of that is the file as committed
and the file as the transaction has it: a program that does not ask whether a transaction is open cannot tell apart two
files that agree in both.

- `commit_unit`: the end of a transaction, whether one is open or not;
- `exec_attempt`: a statement that raises leaves what the transaction has written so far;
- `Alike`, `Blind`: files that look the same, and programs that do not ask; `Blind.exec` is the simulation.
-/

set_option autoImplicit false

namespace Transact

variable {δ ℓ α β : Type}

namespace WalFile

variable {f f' : WalFile Unit δ}

theorem commit_unit (f : WalFile Unit δ) : f.commit () = ⟨f.view (), none⟩ := by
  obtain ⟨db, _ | ⟨⟨⟩, w⟩⟩ := f <;> rfl

theorem exec_attempt (l : ℓ) (g : δ → Option δ) (k : Unit → Prog ℓ (WalFile Unit δ) β) (f : WalFile Unit δ) :
    (exec ((attempt l () g).bind k) [] f).2 =
      match g (f.view ()) with
      | some w => (exec (k ()) [] (f.put () w)).2
      | none => (f.put () (f.view ()), .raised) := by
  cases h : g (f.view ()) with
  | some w => exact exec_attempt_bind h
  | none => simp [attempt, Prog.bind, exec, h]

/-! ## What a program cannot tell apart -/

/-- `f'` is `f`, or has a transaction open in which nothing differs. -/
structure Alike (f f' : WalFile Unit δ) : Prop where
  db : f.db = f'.db
  view : f.view () = f'.view ()
  closed : f'.writer = none → f = f'

theorem Alike.refl (f : WalFile Unit δ) : Alike f f := ⟨rfl, rfl, fun _ => rfl⟩

/-- A transaction that has changed nothing. -/
theorem alike_put_view (f : WalFile Unit δ) : Alike f (f.put () (f.view ())) :=
  ⟨rfl, (view_put f () _).symm, fun h => by cases h⟩

theorem Alike.put (h : Alike f f') (w : δ) : Alike (f.put () w) (f'.put () w) :=
  ⟨h.db, by rw [view_put, view_put], fun h => by cases h⟩

theorem Alike.commit (h : Alike f f') : Alike (f.commit ()) (f'.commit ()) := by
  rw [commit_unit, commit_unit, h.view]
  exact .refl _

/-- A program whose statements see the file, and not whether a transaction is open. -/
inductive Blind : Prog ℓ (WalFile Unit δ) α → Prop
  | ret (a : α) : Blind (.ret a)
  | raise : Blind .raise
  | call {l : ℓ} {post : WalFile Unit δ → WalFile Unit δ} {next : WalFile Unit δ → Prog ℓ (WalFile Unit δ) α}
      {fault : Prog ℓ (WalFile Unit δ) α} (hpost : ∀ {f f'}, Alike f f' → Alike (post f) (post f'))
      (hnext : ∀ {f f'}, Alike f f' → next f = next f') (h : ∀ f, Blind (next f)) : Blind (.call l post next fault)

/-- Such a program ends alike on files that look the same. -/
theorem Blind.exec {p : Prog ℓ (WalFile Unit δ) α} (hp : Blind p) (h : Alike f f') :
    Alike (exec p [] f).2.1 (exec p [] f').2.1 ∧ (exec p [] f).2.2 = (exec p [] f').2.2 := by
  induction hp generalizing f f' with
  | ret a => exact ⟨h, rfl⟩
  | raise => exact ⟨h, rfl⟩
  | call hpost hnext _ ih =>
    rw [exec_call_nil, exec_call_nil, ← hnext h]
    exact ih f (hpost h)

theorem Blind.bind {p : Prog ℓ (WalFile Unit δ) α} {k : α → Prog ℓ (WalFile Unit δ) β} (hp : Blind p)
    (hk : ∀ a, Blind (k a)) : Blind (p.bind k) := by
  induction hp with
  | ret a => exact hk a
  | raise => exact .raise
  | call hpost hnext _ ih => exact .call hpost (fun h => by rw [hnext h]) ih

theorem blind_select (l : ℓ) (g : δ → α) : Blind (select l () g) :=
  .call id (fun h => congrArg (fun s => Prog.ret (g s)) h.view) fun _ => .ret _

theorem blind_write (l : ℓ) (g : δ → δ) : Blind (write l () g) :=
  .call (fun h => by rw [h.view]; exact h.put _) (fun _ => rfl) fun _ => .ret _

theorem blind_attempt (l : ℓ) (g : δ → Option δ) : Blind (attempt l () g) :=
  .call (fun h => by rw [h.view]; exact h.put _) (fun h => by rw [h.view]) fun f => by
    split
    · exact .ret _
    · exact .raise

theorem blind_commit (l : ℓ) : Blind (doCommit l () : Prog ℓ (WalFile Unit δ) Unit) :=
  .call Alike.commit (fun _ => rfl) fun _ => .ret _

end WalFile

end Transact
