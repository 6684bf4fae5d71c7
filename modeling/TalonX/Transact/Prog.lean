import Mathlib.Data.List.Basic
import Mathlib.Logic.Basic

/-!
# Client programs over a transactional store

A client talks to a shared store through calls. A call either commits, as one atomic step, or raises and leaves the
store as it was. `Prog ℓ σ α` is the tree of such calls: the label names the call site, `post` is the store after the
commit, `next` is the rest of the program (it may depend on what the call read) and `fault` is the rest of the program
when the call raises.

- `bind`, `tryCatch`, `forEach`, `foldEach`, `filterEach`: sequencing, `try/except` and loops;
- `Exec p s es s' o`: `p`, started alone at `s`, makes the calls `es` and stops at `s'` with outcome `o`;
- `exec`: the same run computed from a fault schedule (`exec_sound`);
- `Run`: programs started one after the other by one process.
-/

set_option autoImplicit false

namespace Transact

variable {ℓ σ α β ι : Type}

inductive Prog (ℓ σ α : Type) : Type
  | ret (a : α)
  | raise
  | call (lbl : ℓ) (post : σ → σ) (next : σ → Prog ℓ σ α) (fault : Prog ℓ σ α)

namespace Prog

def bind : Prog ℓ σ α → (α → Prog ℓ σ β) → Prog ℓ σ β
  | ret a, k => k a
  | raise, _ => raise
  | call l post next fault, k => call l post (fun s => (next s).bind k) (fault.bind k)

instance : Monad (Prog ℓ σ) where
  pure := ret
  bind := bind

@[simp] theorem pure_eq (a : α) : (pure a : Prog ℓ σ α) = ret a := rfl

@[simp] theorem bind_eq (p : Prog ℓ σ α) (k : α → Prog ℓ σ β) : (p >>= k) = p.bind k := rfl

@[simp] theorem ret_bind (a : α) (k : α → Prog ℓ σ β) : (ret a).bind k = k a := rfl

@[simp] theorem raise_bind (k : α → Prog ℓ σ β) : (raise : Prog ℓ σ α).bind k = raise := rfl

/-- `try: p except Exception: h`. -/
def tryCatch : Prog ℓ σ α → Prog ℓ σ α → Prog ℓ σ α
  | ret a, _ => ret a
  | raise, h => h
  | call l post next fault, h => call l post (fun s => (next s).tryCatch h) (fault.tryCatch h)

/-- One transaction: `f` commits its result, or raises (`none`) and the store is rolled back. -/
def txn (l : ℓ) (f : σ → Option (α × σ)) : Prog ℓ σ α :=
  call l (fun s => (f s).elim s Prod.snd) (fun s => (f s).elim raise (fun r => ret r.1)) raise

/-- A call that only reads. -/
def read (l : ℓ) (g : σ → α) : Prog ℓ σ α := call l id (fun s => ret (g s)) raise

/-- A call that writes and returns nothing. -/
def write (l : ℓ) (g : σ → σ) : Prog ℓ σ Unit := call l g (fun _ => ret ()) raise

/-- A computation that touches no store and may raise. -/
def ofOption : Option α → Prog ℓ σ α
  | some a => ret a
  | none => raise

@[simp] theorem ofOption_some (a : α) : (ofOption (some a) : Prog ℓ σ α) = ret a := rfl

@[simp] theorem ofOption_none : (ofOption none : Prog ℓ σ α) = raise := rfl

def forEach : List β → (β → Prog ℓ σ Unit) → Prog ℓ σ Unit
  | [], _ => ret ()
  | x :: xs, body => (body x).bind fun _ => forEach xs body

def foldEach : List β → α → (α → β → Prog ℓ σ α) → Prog ℓ σ α
  | [], a, _ => ret a
  | x :: xs, a, body => (body a x).bind fun a' => foldEach xs a' body

/-- The elements for which the body answers `true`. -/
def filterEach : List β → (β → Prog ℓ σ Bool) → Prog ℓ σ (List β)
  | [], _ => ret []
  | x :: xs, body => (body x).bind fun keep => (filterEach xs body).bind fun ys => ret (if keep then x :: ys else ys)

end Prog

open Prog

/-! ## Runs of one program -/

/-- What the environment does at a call. -/
inductive Fault
  | none
  | raise
  | crash
  deriving DecidableEq, Repr

structure Event (ℓ σ : Type) where
  lbl : ℓ
  pre : σ
  post : σ
  fault : Fault

/-- How a program stopped. -/
inductive Outcome (α : Type)
  | done (a : α)
  | raised
  | crashed
  deriving DecidableEq

/-- The program returned a value that passes the test. -/
def Outcome.returned {α : Type} (test : α → Bool) : Outcome α → Bool
  | .done a => test a
  | _ => false

theorem Outcome.exists_of_returned {α : Type} {test : α → Bool} {o : Outcome α} (h : o.returned test = true) :
    ∃ a, o = .done a ∧ test a = true := by
  cases o with
  | done a => exact ⟨a, rfl, h⟩
  | raised => cases h
  | crashed => cases h

inductive Exec : Prog ℓ σ α → σ → List (Event ℓ σ) → σ → Outcome α → Prop
  | ret (a : α) (s : σ) : Exec (.ret a) s [] s (.done a)
  | raise (s : σ) : Exec .raise s [] s .raised
  | ok {l post next fault s es s' o} : Exec (next s) (post s) es s' o →
      Exec (.call l post next fault) s (⟨l, s, post s, .none⟩ :: es) s' o
  | fault {l post next fault s es s' o} : Exec fault s es s' o →
      Exec (.call l post next fault) s (⟨l, s, s, .raise⟩ :: es) s' o
  | crash {l post next fault s} : Exec (.call l post next fault) s [⟨l, s, s, .crash⟩] s .crashed

/-- A relation that every committed call keeps relates every store of the run to its end. -/
theorem Exec.later {r : σ → σ → Prop} (hrefl : ∀ s, r s s) (htrans : ∀ {s t u}, r s t → r t u → r s u)
    {p : Prog ℓ σ α} {s s' : σ} {es : List (Event ℓ σ)} {o : Outcome α} (h : Exec p s es s' o)
    (hstep : ∀ e ∈ es, e.fault = .none → r e.pre e.post) : r s s' ∧ ∀ e ∈ es, r e.post s' := by
  induction h with
  | ret a s => exact ⟨hrefl s, by simp⟩
  | raise s => exact ⟨hrefl s, by simp⟩
  | ok _ ih =>
    obtain ⟨hnext, hrest⟩ := ih fun e he => hstep e (List.mem_cons_of_mem _ he)
    exact ⟨htrans (hstep _ List.mem_cons_self rfl) hnext, List.forall_mem_cons.2 ⟨hnext, hrest⟩⟩
  | fault _ ih =>
    obtain ⟨hnext, hrest⟩ := ih fun e he => hstep e (List.mem_cons_of_mem _ he)
    exact ⟨hnext, List.forall_mem_cons.2 ⟨hnext, hrest⟩⟩
  | crash =>
    refine ⟨hrefl _, fun e he => ?_⟩
    rw [List.mem_singleton.1 he]
    exact hrefl _

/-- The run of a program under a fault schedule; past its end nothing goes wrong. -/
def exec : Prog ℓ σ α → List Fault → σ → List (Event ℓ σ) × σ × Outcome α
  | .ret a, _, s => ([], s, .done a)
  | .raise, _, s => ([], s, .raised)
  | .call l _ _ _, .crash :: _, s => ([⟨l, s, s, .crash⟩], s, .crashed)
  | .call l _ _ fault, .raise :: fs, s =>
    let r := exec fault fs s
    (⟨l, s, s, .raise⟩ :: r.1, r.2)
  | .call l post next _, fs, s =>
    let r := exec (next s) fs.tail (post s)
    (⟨l, s, post s, .none⟩ :: r.1, r.2)

theorem exec_sound (p : Prog ℓ σ α) : ∀ (fs : List Fault) (s : σ),
    Exec p s (exec p fs s).1 (exec p fs s).2.1 (exec p fs s).2.2 := by
  induction p with
  | ret a => exact fun _ s => .ret a s
  | raise => exact fun _ s => .raise s
  | call l post next fault ihn ihf =>
    intro fs s
    rcases fs with _ | ⟨_ | _ | _, fs⟩
    · exact .ok (ihn s [] (post s))
    · exact .ok (ihn s fs (post s))
    · exact .fault (ihf fs s)
    · exact .crash

/-- Without a schedule nothing goes wrong. -/
theorem fault_exec_nil (p : Prog ℓ σ α) : ∀ s, ∀ e ∈ (exec p [] s).1, e.fault = .none := by
  induction p with
  | ret a => exact fun _ _ he => (List.not_mem_nil he).elim
  | raise => exact fun _ _ he => (List.not_mem_nil he).elim
  | call l post next fault ihn _ =>
    intro s e he
    rcases List.mem_cons.1 he with rfl | he
    · rfl
    · exact ihn s (post s) e he

theorem exec_call_nil (l : ℓ) (post : σ → σ) (next : σ → Prog ℓ σ α) (fault : Prog ℓ σ α) (s : σ) :
    exec (.call l post next fault) [] s =
      (⟨l, s, post s, .none⟩ :: (exec (next s) [] (post s)).1, (exec (next s) [] (post s)).2) := rfl

/-- Without faults the rest of a program starts where the first part has returned. -/
theorem exec_bind_nil {p : Prog ℓ σ α} {k : α → Prog ℓ σ β} {a : α} {t : σ} :
    ∀ {s : σ}, (exec p [] s).2 = (t, .done a) → (exec (p.bind k) [] s).2 = (exec (k a) [] t).2 := by
  induction p with
  | ret b =>
    intro s h
    obtain ⟨rfl, hdone⟩ := Prod.mk.inj h
    obtain rfl := Outcome.done.inj hdone
    rfl
  | raise =>
    intro s h
    cases (Prod.mk.inj h).2
  | call l post next fault ihn _ => exact fun h => ihn _ h

/-- When no call raises, a run is the run without faults, or a crash has cut it off: the rest `q` was left to do. -/
theorem Exec.resume {p : Prog ℓ σ α} {s s' : σ} {es : List (Event ℓ σ)} {o : Outcome α} (h : Exec p s es s' o)
    (hf : ∀ e ∈ es, e.fault ≠ .raise) :
    (o ≠ .crashed ∧ exec p [] s = (es, s', o)) ∨
      o = .crashed ∧ ∃ done l, ∃ q : Prog ℓ σ α, es = done ++ [⟨l, s', s', .crash⟩] ∧
        exec p [] s = (done ++ (exec q [] s').1, (exec q [] s').2) := by
  induction h with
  | ret a s => exact .inl ⟨nofun, rfl⟩
  | raise s => exact .inl ⟨nofun, rfl⟩
  | @ok l post next fault s es s' o _ ih =>
    rcases ih fun e he => hf e (List.mem_cons_of_mem _ he) with ⟨ho, hrun⟩ | ⟨ho, done, l', q, hes, hrun⟩
    · exact .inl ⟨ho, by rw [exec_call_nil, hrun]⟩
    · refine .inr ⟨ho, ⟨l, s, post s, .none⟩ :: done, l', q, by rw [hes]; rfl, ?_⟩
      rw [exec_call_nil, hrun]
      rfl
  | fault _ _ => exact absurd rfl (hf _ List.mem_cons_self)
  | @crash l post next fault s => exact .inr ⟨rfl, [], l, .call l post next fault, rfl, rfl⟩

/-! ## One process, one program after the other -/

/-- One program of a run: what it was started with, where, what it did and where it stopped. -/
structure Seg (ι ℓ σ : Type) where
  input : ι
  pre : σ
  events : List (Event ℓ σ)
  post : σ
  outcome : Outcome Unit

/-- The process starts `prog i` for one input `i` after the other, whatever became of the program before. -/
inductive Run (prog : ι → Prog ℓ σ Unit) (init : σ) : List (Seg ι ℓ σ) → σ → Prop
  | nil : Run prog init [] init
  | snoc {segs s i es s' o} : Run prog init segs s → Exec (prog i) s es s' o →
      Run prog init (segs ++ [⟨i, s, es, s', o⟩]) s'

theorem Run.exec_of_mem {prog : ι → Prog ℓ σ Unit} {init s : σ} {segs : List (Seg ι ℓ σ)}
    (h : Run prog init segs s) {g : Seg ι ℓ σ} (hg : g ∈ segs) :
    Exec (prog g.input) g.pre g.events g.post g.outcome := by
  induction h with
  | nil => cases hg
  | snoc _ hx ih =>
    rcases List.mem_append.1 hg with hg | hg
    · exact ih hg
    · rw [List.mem_singleton] at hg
      subst hg
      exact hx

/-- The run of a list of inputs with their fault schedules. -/
def runAll (prog : ι → Prog ℓ σ Unit) : List (ι × List Fault) → σ → List (Seg ι ℓ σ) × σ
  | [], s => ([], s)
  | (i, fs) :: rest, s =>
    let r := exec (prog i) fs s
    let q := runAll prog rest r.2.1
    (⟨i, s, r.1, r.2.1, r.2.2⟩ :: q.1, q.2)

theorem Run.append {prog : ι → Prog ℓ σ Unit} {init s t : σ} {segs segs' : List (Seg ι ℓ σ)}
    (h : Run prog init segs s) (h' : Run prog s segs' t) : Run prog init (segs ++ segs') t := by
  induction h' with
  | nil => simpa using h
  | snoc _ hx ih => rw [← List.append_assoc]; exact .snoc ih hx

theorem runAll_sound (prog : ι → Prog ℓ σ Unit) : ∀ (inputs : List (ι × List Fault)) (s : σ),
    Run prog s (runAll prog inputs s).1 (runAll prog inputs s).2
  | [], _ => .nil
  | (i, fs) :: rest, s => by
    have h := Run.snoc (.nil : Run prog s [] s) (exec_sound (prog i) fs s)
    exact h.append (runAll_sound prog rest _)

theorem mem_runAll_input {prog : ι → Prog ℓ σ Unit} : ∀ {inputs : List (ι × List Fault)} {s : σ} {g : Seg ι ℓ σ},
    g ∈ (runAll prog inputs s).1 → g.input ∈ inputs.map Prod.fst
  | (i, fs) :: rest, s, g, h => by
    rcases List.mem_cons.1 h with rfl | h
    · exact List.mem_cons_self
    · exact List.mem_cons_of_mem _ (mem_runAll_input h)

end Transact
