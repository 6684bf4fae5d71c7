import TalonX.Transact.Interleave

/-!
# Guarded outlines

An outline whose calls need only be right where a guard holds: `E l` is what the permitted steps promise of a call
labelled `l` at the moment it commits. The guard of a call need not survive the steps of the other processes.

- `Guarded I A E G p`: the outline, with the rules `guarded_call`, `guarded_bind`, `guarded_tryCatch`;
- `GuardedSound`, `Reach.guarded`: in every reachable configuration the invariant and the outlines hold;
- `GuardedSound.commit`: a permitted call satisfies the step property of its process.
-/

set_option autoImplicit false

namespace Transact

open Prog

variable {ℓ σ α β ι : Type}

/-- Where its guard holds, every call keeps `I`, satisfies `G` and establishes the assertion of the next call. -/
def Guarded (I : σ → Prop) (A E : ℓ → σ → Prop) (G : ℓ → σ → σ → Prop) : Prog ℓ σ α → Prop
  | .ret _ => True
  | .raise => True
  | .call l post next fault =>
    (∀ s, I s → A l s → E l s → I (post s) ∧ G l s (post s) ∧ (next s).entry A (post s) ∧ Guarded I A E G (next s)) ∧
      Guarded I A E G fault ∧ fault.Free I A

variable {I : σ → Prop} {A E : ℓ → σ → Prop} {G : ℓ → σ → σ → Prop}

/-! ## Rules -/

@[simp] theorem guarded_ret (a : α) : Guarded I A E G (.ret a : Prog ℓ σ α) := trivial

@[simp] theorem guarded_raise : Guarded I A E G (.raise : Prog ℓ σ α) := trivial

theorem free_raise : (.raise : Prog ℓ σ α).Free I A := fun _ _ => trivial

/-- A statement with its continuation; when it raises, the program is over. -/
theorem guarded_call {l : ℓ} {post : σ → σ} {next : σ → Prog ℓ σ α}
    (h : ∀ s, I s → A l s → E l s → I (post s) ∧ G l s (post s) ∧ (next s).entry A (post s))
    (hn : ∀ s, Guarded I A E G (next s)) : Guarded I A E G (.call l post next .raise) :=
  ⟨fun s hI hA hE => ⟨(h s hI hA hE).1, (h s hI hA hE).2.1, (h s hI hA hE).2.2, hn s⟩, trivial, free_raise⟩

theorem guarded_bind {p : Prog ℓ σ α} {k : α → Prog ℓ σ β} (hp : Guarded I A E G p)
    (hk : ∀ a, Guarded I A E G (k a)) (hfree : ∀ a, (k a).Free I A) : Guarded I A E G (p.bind k) := by
  induction p with
  | ret a => exact hk a
  | raise => trivial
  | call l post next fault ihn ihf =>
    obtain ⟨hc, hf, hff⟩ := hp
    refine ⟨fun s hI hA hE => ?_, ihf hf, free_bind hff hfree⟩
    obtain ⟨hI', hG, he, hg⟩ := hc s hI hA hE
    exact ⟨hI', hG, entry_bind hfree hI' he, ihn s hg⟩

theorem guarded_tryCatch {p q : Prog ℓ σ α} (hp : Guarded I A E G p) (hq : Guarded I A E G q) (hfree : q.Free I A) :
    Guarded I A E G (p.tryCatch q) := by
  induction p with
  | ret a => trivial
  | raise => exact hq
  | call l post next fault ihn ihf =>
    obtain ⟨hc, hf, hff⟩ := hp
    refine ⟨fun s hI hA hE => ?_, ihf hf, fun s hI => entry_tryCatch hfree hI (hff s hI)⟩
    obtain ⟨hI', hG, he, hg⟩ := hc s hI hA hE
    exact ⟨hI', hG, entry_tryCatch hfree hI' he, ihn s hg⟩

/-! ## Soundness -/

/-- The invariant holds and every running program has an outline whose next assertion holds. -/
structure GuardedSound (I : σ → Prop) (A E : ι → ℓ → σ → Prop) (G : ι → ℓ → σ → σ → Prop) (S : Sys ι ℓ σ) : Prop where
  inv : I S.store
  outline : ∀ i p, S.proc i = some p → Guarded I (A i) (E i) (G i) p ∧ p.entry (A i) S.store

theorem GuardedSound.idle {A E : ι → ℓ → σ → Prop} {G : ι → ℓ → σ → σ → Prop} {s : σ} (h : I s) :
    GuardedSound I A E G (Sys.idle s : Sys ι ℓ σ) := ⟨h, nofun⟩

/-- A guarded call leaves the next assertion of every other process standing. -/
def GuardedStable (I : σ → Prop) (A E : ι → ℓ → σ → Prop) (G : ι → ℓ → σ → σ → Prop) : Prop :=
  ∀ (i j : ι) (l l' : ℓ) (s s' : σ), i ≠ j → I s → E i l s → G i l s s' → A j l' s → A j l' s'

section Steps

variable [DecidableEq ι] {A E : ι → ℓ → σ → Prop} {G : ι → ℓ → σ → σ → Prop}
  {starts : ι → Prog ℓ σ Unit → Prop} {allow : Sys ι ℓ σ → Move ι ℓ → Prop} {S S' S₀ : Sys ι ℓ σ} {m : Move ι ℓ}

theorem GuardedSound.set {s' : σ} {i : ι} {p : Option (Prog ℓ σ Unit)} (h : GuardedSound I A E G S) (hI : I s')
    (hp : ∀ q, p = some q → Guarded I (A i) (E i) (G i) q ∧ q.entry (A i) s')
    (hother : ∀ j q, j ≠ i → S.proc j = some q → q.entry (A j) S.store → q.entry (A j) s') :
    GuardedSound I A E G (S.set i s' p) := by
  refine ⟨hI, fun j q hq => ?_⟩
  simp only [Sys.set] at hq ⊢
  by_cases hj : j = i
  · subst hj
    rw [Function.update_self] at hq
    exact hp q hq
  · rw [Function.update_of_ne hj] at hq
    obtain ⟨hoq, heq⟩ := h.outline j q hq
    exact ⟨hoq, hother j q hj hq heq⟩

/-- The assertion of a program moves with those of its labels. -/
theorem entry_mono {A : ℓ → σ → Prop} {p : Prog ℓ σ α} {s s' : σ} (h : ∀ l, A l s → A l s') (hp : p.entry A s) :
    p.entry A s' := by
  cases p with
  | ret a => trivial
  | raise => trivial
  | call l post next fault => exact h l hp

theorem Step.guardedSound (hstart : ∀ i p, starts i p → Guarded I (A i) (E i) (G i) p ∧ p.Free I (A i))
    (hst : GuardedStable I A E G) (hallow : ∀ (S : Sys ι ℓ σ) i l, allow S (.commit i l) → E i l S.store)
    (h : GuardedSound I A E G S) (hs : Step starts S m S') (ha : allow S m) : GuardedSound I A E G S' := by
  cases hs with
  | @start i p hidle hp =>
    refine h.set h.inv (fun q hq => ?_) fun _ _ _ _ he => he
    obtain rfl := Option.some.inj hq
    exact ⟨(hstart i p hp).1, (hstart i p hp).2 _ h.inv⟩
  | @commit i l post next fault hi =>
    obtain ⟨ho, hA⟩ := h.outline i _ hi
    have hE : E i l S.store := hallow S i l ha
    obtain ⟨hI', hG, he, hn⟩ := ho.1 S.store h.inv hA hE
    refine h.set hI' (fun q hq => ?_) fun j q hj _ heq =>
      entry_mono (fun l' => hst i j l l' _ _ (Ne.symm hj) h.inv hE hG) heq
    obtain rfl := Option.some.inj hq
    exact ⟨hn, he⟩
  | @fault i l post next fault hi =>
    refine h.set h.inv (fun q hq => ?_) fun _ _ _ _ he => he
    obtain rfl := Option.some.inj hq
    exact ⟨(h.outline i _ hi).1.2.1, (h.outline i _ hi).1.2.2 _ h.inv⟩
  | @stop i => exact h.set h.inv nofun fun _ _ _ _ he => he

theorem Reach.guarded (hstart : ∀ i p, starts i p → Guarded I (A i) (E i) (G i) p ∧ p.Free I (A i))
    (hst : GuardedStable I A E G) (hallow : ∀ (S : Sys ι ℓ σ) i l, allow S (.commit i l) → E i l S.store)
    (h0 : GuardedSound I A E G S₀) (h : Reach starts allow S₀ S) : GuardedSound I A E G S := by
  induction h with
  | refl => exact h0
  | step _ hs ha ih => exact hs.guardedSound hstart hst hallow ih ha

theorem GuardedSound.commit (h : GuardedSound I A E G S) {i : ι} {l : ℓ} (hE : E i l S.store)
    (hs : Step starts S (.commit i l) S') : G i l S.store S'.store := by
  cases hs with
  | commit hi =>
    obtain ⟨ho, hA⟩ := h.outline i _ hi
    exact (ho.1 S.store h.inv hA hE).2.1

end Steps

end Transact
