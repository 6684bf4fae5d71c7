import TalonX.Transact.Interleave

/-!
# Processes that follow a protocol

A process is in a phase, which says what it has done so far and not finished. `T p l s s' q` says that a call labelled `l`
may take a process from phase `p` to phase `q` and the store from `s` to `s'`.

- `Follows T p x Q`: the program `x`, in phase `p`, makes such calls only, and returns in a phase that `Q` describes;
- the rules of the constructs (`follows_bind`, `follows_forEach`, `follows_foldEach`, ...);
- `Reach.followsBy`: an invariant of the store and the phases that the permitted moves keep holds in every reachable
  configuration; `Reach.follows`: whatever raises or stops; `InPhase.move` for a single call.
-/

set_option autoImplicit false

namespace Transact

open Prog

variable {ℓ σ φ α β ι : Type}

def Follows (T : φ → ℓ → σ → σ → φ → Prop) : φ → Prog ℓ σ α → (α → φ → Prop) → Prop
  | p, .ret a, Q => Q a p
  | _, .raise, _ => True
  | p, .call l post next fault, Q =>
    (∀ s, ∃ q, T p l s (post s) q ∧ Follows T q (next s) Q) ∧ Follows T p fault Q

variable {T : φ → ℓ → σ → σ → φ → Prop} {p : φ}

/-! ## Rules -/

theorem follows_ret {a : α} {Q : α → φ → Prop} (h : Q a p) : Follows T p (.ret a : Prog ℓ σ α) Q := h

theorem follows_raise {Q : α → φ → Prop} : Follows T p (.raise : Prog ℓ σ α) Q := trivial

theorem follows_mono {x : Prog ℓ σ α} {Q R : α → φ → Prop} (hx : Follows T p x Q) (h : ∀ a q, Q a q → R a q) :
    Follows T p x R := by
  induction x generalizing p with
  | ret a => exact h a p hx
  | raise => trivial
  | call l post next fault ihn ihf =>
    refine ⟨fun s => ?_, ihf hx.2⟩
    obtain ⟨q, hT, hn⟩ := hx.1 s
    exact ⟨q, hT, ihn s hn⟩

theorem follows_bind {x : Prog ℓ σ α} {k : α → Prog ℓ σ β} {Q : β → φ → Prop}
    (hx : Follows T p x fun a q => Follows T q (k a) Q) : Follows T p (x.bind k) Q := by
  induction x generalizing p with
  | ret a => exact hx
  | raise => trivial
  | call l post next fault ihn ihf =>
    refine ⟨fun s => ?_, ihf hx.2⟩
    obtain ⟨q, hT, hn⟩ := hx.1 s
    exact ⟨q, hT, ihn s hn⟩

/-- A call whose value and phase depend on the store. -/
theorem follows_call {l : ℓ} {post : σ → σ} {g : σ → α} {Q : α → φ → Prop}
    (h : ∀ s, ∃ q, T p l s (post s) q ∧ Q (g s) q) :
    Follows T p (.call l post (fun s => .ret (g s)) .raise) Q := ⟨h, trivial⟩

theorem follows_read {l : ℓ} {g : σ → α} {Q : α → φ → Prop} (hT : ∀ s, T p l s s p) (hQ : ∀ s, Q (g s) p) :
    Follows T p (Prog.read l g) Q := ⟨fun s => ⟨p, hT s, hQ s⟩, trivial⟩

theorem follows_write {l : ℓ} {g : σ → σ} {q : φ} {Q : Unit → φ → Prop} (hT : ∀ s, T p l s (g s) q) (hQ : Q () q) :
    Follows T p (Prog.write l g) Q := ⟨fun s => ⟨q, hT s, hQ⟩, trivial⟩

/-- A transaction that raises leaves the phase and the store alone. -/
theorem follows_txn {l : ℓ} {f : σ → Option (α × σ)} {Q : α → φ → Prop} (hn : ∀ s, T p l s s p)
    (h : ∀ s a s', f s = some (a, s') → ∃ q, T p l s s' q ∧ Q a q) : Follows T p (Prog.txn l f) Q := by
  refine ⟨fun s => ?_, trivial⟩
  cases hf : f s with
  | none => exact ⟨p, by simpa [hf] using hn s, by simp only [hf, Option.elim]; exact follows_raise⟩
  | some r =>
    obtain ⟨a, s'⟩ := r
    obtain ⟨q, hT, hQ⟩ := h s a s' hf
    exact ⟨q, by simpa [hf] using hT, by simp only [hf, Option.elim]; exact follows_ret hQ⟩

/-- A loop: `J xs q` describes the phase in front of the remaining elements `xs`. -/
theorem follows_forEach {body : β → Prog ℓ σ Unit} {J : List β → φ → Prop}
    (hb : ∀ x xs q, J (x :: xs) q → Follows T q (body x) fun _ => J xs) :
    ∀ (xs : List β) (q : φ), J xs q → Follows T q (Prog.forEach xs body) fun _ => J []
  | [], _, h => h
  | x :: xs, q, h => follows_bind (follows_mono (hb x xs q h) fun _ q' h' => follows_forEach hb xs q' h')

theorem follows_foldEach {body : α → β → Prog ℓ σ α} {J : List β → α → φ → Prop}
    (hb : ∀ x xs a q, J (x :: xs) a q → Follows T q (body a x) (J xs)) :
    ∀ (xs : List β) (a : α) (q : φ), J xs a q → Follows T q (Prog.foldEach xs a body) (J [])
  | [], _, _, h => h
  | x :: xs, a, q, h => follows_bind (follows_mono (hb x xs a q h) fun a' q' h' => follows_foldEach hb xs a' q' h')

/-- A loop that keeps some of its elements: `J ys xs q` describes the phase when `ys` were kept and `xs` remain. -/
theorem follows_filterEach {body : β → Prog ℓ σ Bool} {J : List β → List β → φ → Prop}
    (hb : ∀ ys x xs q, J ys (x :: xs) q →
      Follows T q (body x) fun keep => J (if keep then ys ++ [x] else ys) xs) :
    ∀ (xs ys : List β) (q : φ), J ys xs q → Follows T q (Prog.filterEach xs body) fun zs => J (ys ++ zs) []
  | [], ys, _, h => by
    rw [Prog.filterEach]
    exact follows_ret (by simpa using h)
  | x :: xs, ys, q, h => by
    rw [Prog.filterEach]
    refine follows_bind (follows_mono (hb ys x xs q h) fun keep q' h' => follows_bind ?_)
    refine follows_mono (follows_filterEach hb xs _ q' h') fun zs q'' h'' => follows_ret ?_
    cases keep <;> simpa using h''

/-! ## Soundness -/

section Runs

variable [DecidableEq ι] {T : ι → φ → ℓ → σ → σ → φ → Prop} {E : ι → ℓ → σ → Prop} {idle : φ}
  {J : σ → (ι → φ) → Prop} {starts : ι → Prog ℓ σ Unit → Prop} {allow : Sys ι ℓ σ → Move ι ℓ → Prop}
  {S S' : Sys ι ℓ σ} {m : Move ι ℓ} {P : ι → φ}

/-- The invariant holds, and every running program follows the protocol from the phase of its process. -/
structure InPhase (J : σ → (ι → φ) → Prop) (T : ι → φ → ℓ → σ → σ → φ → Prop) (S : Sys ι ℓ σ) (P : ι → φ) :
    Prop where
  inv : J S.store P
  follows : ∀ i x, S.proc i = some x → Follows (T i) (P i) x fun _ _ => True

omit [DecidableEq ι] in
theorem InPhase.init {s : σ} (h : J s fun _ => idle) : InPhase J T (Sys.idle s) fun _ => idle := ⟨h, nofun⟩

theorem InPhase.set {s' : σ} {i : ι} {x : Option (Prog ℓ σ Unit)} {q : φ} (h : InPhase J T S P)
    (hJ : J s' (Function.update P i q)) (hx : ∀ y, x = some y → Follows (T i) q y fun _ _ => True) :
    InPhase J T (S.set i s' x) (Function.update P i q) := by
  refine ⟨hJ, fun j y hy => ?_⟩
  simp only [Sys.set] at hy
  by_cases hj : j = i
  · subst hj
    rw [Function.update_self] at hy ⊢
    exact hx y hy
  · rw [Function.update_of_ne hj] at hy ⊢
    exact h.follows j y hy

/-- A stop takes a process back to the idle phase, when the permitted stops keep the invariant there. -/
theorem Step.inPhaseBy (hstart : ∀ i x, starts i x → Follows (T i) idle x fun _ _ => True)
    (hallow : ∀ (S : Sys ι ℓ σ) i l, allow S (.commit i l) → E i l S.store)
    (hstop : ∀ (S : Sys ι ℓ σ) P i, allow S (.stop i) → J S.store P → J S.store (Function.update P i idle))
    (hstep : ∀ s P i l s' q, J s P → E i l s → T i (P i) l s s' q → J s' (Function.update P i q))
    (h : InPhase J T S P) (hidle : ∀ i, S.proc i = none → P i = idle) (hs : Step starts S m S') (ha : allow S m) :
    ∃ P', InPhase J T S' P' ∧ ∀ i, S'.proc i = none → P' i = idle := by
  have hself : ∀ i, Function.update P i (P i) = P := fun i => Function.update_eq_self i P
  have hkeep : ∀ {i : ι} {s' : σ} {x : Prog ℓ σ Unit} {q : φ}, ∀ j, (S.set i s' (some x)).proc j = none →
      Function.update P i q j = idle := by
    intro i s' x q j hj
    simp only [Sys.set] at hj
    by_cases hji : j = i
    · subst hji
      rw [Function.update_self] at hj
      cases hj
    · rw [Function.update_of_ne hji] at hj ⊢
      exact hidle j hj
  cases hs with
  | @start i x hnone hx =>
    refine ⟨_, h.set (q := idle) ?_ fun y hy => ?_, hkeep⟩
    · rw [← hidle i hnone, hself]
      exact h.inv
    · obtain rfl := Option.some.inj hy
      exact hstart i x hx
  | @commit i l post next fault hi =>
    obtain ⟨q, hT, hn⟩ := (h.follows i _ hi).1 S.store
    refine ⟨_, h.set (hstep _ _ i l _ q h.inv (hallow S i l ha) hT) fun y hy => ?_, hkeep⟩
    obtain rfl := Option.some.inj hy
    exact hn
  | @fault i l post next fault hi =>
    refine ⟨_, h.set (hself i ▸ h.inv) fun y hy => ?_, hkeep⟩
    obtain rfl := Option.some.inj hy
    exact (h.follows i _ hi).2
  | @stop i =>
    refine ⟨_, h.set (hstop S P i ha h.inv) (fun _ hy => by cases hy), fun j hj => ?_⟩
    by_cases hji : j = i
    · subst hji
      exact Function.update_self ..
    · simp only [Sys.set, Function.update_of_ne hji] at hj ⊢
      exact hidle j hj

theorem Reach.followsBy {s₀ : σ} (hstart : ∀ i x, starts i x → Follows (T i) idle x fun _ _ => True)
    (hallow : ∀ (S : Sys ι ℓ σ) i l, allow S (.commit i l) → E i l S.store)
    (hstop : ∀ (S : Sys ι ℓ σ) P i, allow S (.stop i) → J S.store P → J S.store (Function.update P i idle))
    (hstep : ∀ s P i l s' q, J s P → E i l s → T i (P i) l s s' q → J s' (Function.update P i q))
    (h0 : J s₀ fun _ => idle) (h : Reach starts allow (Sys.idle s₀) S) :
    ∃ P, InPhase J T S P ∧ ∀ i, S.proc i = none → P i = idle := by
  induction h with
  | refl => exact ⟨_, .init h0, fun _ _ => rfl⟩
  | step _ hs ha ih =>
    obtain ⟨P, hP, hidle⟩ := ih
    exact hs.inPhaseBy hstart hallow hstop hstep hP hidle ha

/-- The case in which the idle phase asks for nothing. -/
theorem Reach.follows {s₀ : σ} (hstart : ∀ i x, starts i x → Follows (T i) idle x fun _ _ => True)
    (hallow : ∀ (S : Sys ι ℓ σ) i l, allow S (.commit i l) → E i l S.store)
    (hreset : ∀ s P i, J s P → J s (Function.update P i idle))
    (hstep : ∀ s P i l s' q, J s P → E i l s → T i (P i) l s s' q → J s' (Function.update P i q))
    (h0 : J s₀ fun _ => idle) (h : Reach starts allow (Sys.idle s₀) S) : ∃ P, InPhase J T S P := by
  obtain ⟨P, hP, -⟩ := h.followsBy hstart hallow (fun S P i _ hJ => hreset S.store P i hJ) hstep h0
  exact ⟨P, hP⟩

/-- A committed call is a move of the protocol. -/
theorem InPhase.move (h : InPhase J T S P) {i : ι} {l : ℓ} (hs : Step starts S (.commit i l) S') :
    ∃ q, T i (P i) l S.store S'.store q := by
  cases hs with
  | commit hi =>
    obtain ⟨q, hT, -⟩ := (h.follows i _ hi).1 S.store
    exact ⟨q, hT⟩

end Runs

end Transact
