import Mathlib.Logic.Function.Basic
import TalonX.Transact.Hoare

/-!
# Interleaved clients

Several processes run programs over one store. A step lets one process start a program, commit its next call, have
that call raise, or stop (its program is over, or it crashed).

`Outline I A G p` is a proof outline for `p` that other processes cannot break: `A l` is what `p` relies on when its
next call is labelled `l`, every call keeps the store invariant `I` and satisfies the step property `G`.

- the rules of the constructs (`outline_bind`, `outline_tryCatch`, `outline_forEach`, ...);
- `Reach.invariant`: when the assertions are stable under the steps of the other processes, the invariant and the
  outlines hold in every reachable configuration (`Reach.invariantBy`: with assertions for each process, and an
  invariant of the permitted steps beside them);
- `Keeps`, `Reach.invariant_of_keeps`: the case without assertions, where every call keeps the invariant from any
  store;
- `wp_of_keeps`: such a program as a part of one that runs alone.
-/

set_option autoImplicit false

namespace Transact

open Prog

variable {ℓ σ α β ι : Type}

/-! ## Configurations and steps -/

structure Sys (ι ℓ σ : Type) where
  store : σ
  proc : ι → Option (Prog ℓ σ Unit)

/-- What a step was. -/
inductive Move (ι ℓ : Type)
  | start (i : ι)
  | commit (i : ι) (l : ℓ)
  | fault (i : ι) (l : ℓ)
  | stop (i : ι)

variable [DecidableEq ι]

def Sys.set (S : Sys ι ℓ σ) (i : ι) (s : σ) (p : Option (Prog ℓ σ Unit)) : Sys ι ℓ σ :=
  ⟨s, Function.update S.proc i p⟩

inductive Step (starts : ι → Prog ℓ σ Unit → Prop) (S : Sys ι ℓ σ) : Move ι ℓ → Sys ι ℓ σ → Prop
  | start {i p} : S.proc i = none → starts i p → Step starts S (.start i) (S.set i S.store (some p))
  | commit {i l post next fault} : S.proc i = some (.call l post next fault) →
      Step starts S (.commit i l) (S.set i (post S.store) (some (next S.store)))
  | fault {i l post next fault} : S.proc i = some (.call l post next fault) →
      Step starts S (.fault i l) (S.set i S.store (some fault))
  | stop {i} : Step starts S (.stop i) (S.set i S.store none)

/-- The configurations reached from `S₀` by steps that `allow` permits. -/
inductive Reach (starts : ι → Prog ℓ σ Unit → Prop) (allow : Sys ι ℓ σ → Move ι ℓ → Prop) (S₀ : Sys ι ℓ σ) :
    Sys ι ℓ σ → Prop
  | refl : Reach starts allow S₀ S₀
  | step {S m S'} : Reach starts allow S₀ S → Step starts S m S' → allow S m → Reach starts allow S₀ S'

/-- All processes idle. -/
def Sys.idle (s : σ) : Sys ι ℓ σ := ⟨s, fun _ => none⟩

theorem Reach.trans {starts : ι → Prog ℓ σ Unit → Prop} {allow : Sys ι ℓ σ → Move ι ℓ → Prop} {S T U : Sys ι ℓ σ}
    (h : Reach starts allow S T) (h' : Reach starts allow T U) : Reach starts allow S U := by
  induction h' with
  | refl => exact h
  | step _ hs ha ih => exact ih.step hs ha

/-- The next call of the program has label `l`. -/
def Prog.AboutTo (l : ℓ) : Prog ℓ σ α → Prop
  | .call l' _ _ _ => l' = l
  | _ => False

/-- Process `i` starts `p`. -/
def Sys.start (S : Sys ι ℓ σ) (i : ι) (p : Prog ℓ σ Unit) : Sys ι ℓ σ := S.set i S.store (some p)

/-- Process `i` commits its next call. -/
def Sys.commit (S : Sys ι ℓ σ) (i : ι) : Sys ι ℓ σ :=
  match S.proc i with
  | some (.call _ post next _) => S.set i (post S.store) (some (next S.store))
  | _ => S

@[simp] theorem Sys.proc_start_of_ne {S : Sys ι ℓ σ} {i j : ι} (p : Prog ℓ σ Unit) (h : j ≠ i) :
    (S.start i p).proc j = S.proc j := Function.update_of_ne h _ _

@[simp] theorem Sys.proc_commit_of_ne {S : Sys ι ℓ σ} {i j : ι} (h : j ≠ i) : (S.commit i).proc j = S.proc j := by
  unfold Sys.commit
  split
  · exact Function.update_of_ne h _ _
  · rfl

theorem Reach.start {starts : ι → Prog ℓ σ Unit → Prop} {S₀ S : Sys ι ℓ σ} {i : ι} {p : Prog ℓ σ Unit}
    (h : Reach starts (fun _ _ => True) S₀ S) (hi : S.proc i = none) (hp : starts i p) :
    Reach starts (fun _ _ => True) S₀ (S.start i p) := h.step (.start hi hp) trivial

/-- What holds of every step holds of this one. -/
theorem commit_of_steps {starts : ι → Prog ℓ σ Unit → Prop} {S : Sys ι ℓ σ} {P : Sys ι ℓ σ → Prop} (i : ι) (h0 : P S)
    (h : ∀ m S', Step starts S m S' → P S') : P (S.commit i) := by
  unfold Sys.commit
  split
  · rename_i hi
    exact h _ _ (.commit hi)
  · exact h0

theorem Reach.commit {starts : ι → Prog ℓ σ Unit → Prop} {S₀ S : Sys ι ℓ σ}
    (h : Reach starts (fun _ _ => True) S₀ S) (i : ι) : Reach starts (fun _ _ => True) S₀ (S.commit i) :=
  commit_of_steps i h fun _ _ hs => h.step hs trivial

/-- The label of the next call of process `i`. -/
def Sys.nextCall (S : Sys ι ℓ σ) (i : ι) : Option ℓ :=
  match S.proc i with
  | some (.call l _ _ _) => some l
  | _ => none

/-- A permitted commit. -/
theorem Reach.commitAs {starts : ι → Prog ℓ σ Unit → Prop} {allow : Sys ι ℓ σ → Move ι ℓ → Prop} {S₀ S : Sys ι ℓ σ}
    (h : Reach starts allow S₀ S) {i : ι} {l : ℓ} (hl : S.nextCall i = some l) (ha : allow S (.commit i l)) :
    Reach starts allow S₀ (S.commit i) := by
  unfold Sys.nextCall at hl
  split at hl
  · rename_i l' post next fault hi
    obtain rfl := Option.some.inj hl
    have hcommit : S.commit i = S.set i (post S.store) (some (next S.store)) := by
      rw [Sys.commit, hi]
    exact hcommit ▸ h.step (.commit hi) ha
  · cases hl

/-- Commits of the listed processes, one after the other. -/
def Sys.commits (S : Sys ι ℓ σ) (is : List ι) : Sys ι ℓ σ := is.foldl Sys.commit S

/-- The listed commits are permitted. -/
def Sys.Permits (allow : Sys ι ℓ σ → Move ι ℓ → Prop) : Sys ι ℓ σ → List ι → Prop
  | _, [] => True
  | S, i :: is => (∀ l ∈ S.nextCall i, allow S (.commit i l)) ∧ Permits allow (S.commit i) is

instance Sys.decidablePermits {allow : Sys ι ℓ σ → Move ι ℓ → Prop} [∀ S i l, Decidable (allow S (.commit i l))] :
    ∀ (S : Sys ι ℓ σ) (is : List ι), Decidable (S.Permits allow is)
  | _, [] => isTrue trivial
  | S, i :: is =>
    have : Decidable ((S.commit i).Permits allow is) := decidablePermits (S.commit i) is
    inferInstanceAs (Decidable ((∀ l ∈ S.nextCall i, allow S (.commit i l)) ∧ (S.commit i).Permits allow is))

theorem Reach.permits {starts : ι → Prog ℓ σ Unit → Prop} {allow : Sys ι ℓ σ → Move ι ℓ → Prop} {S₀ S : Sys ι ℓ σ}
    {is : List ι} (h : Reach starts allow S₀ S) (hp : S.Permits allow is) : Reach starts allow S₀ (S.commits is) := by
  induction is generalizing S with
  | nil => exact h
  | cons i is ih =>
    obtain ⟨hl, hrest⟩ := hp
    refine ih ?_ hrest
    cases hnext : S.nextCall i with
    | some l => exact h.commitAs hnext (hl l hnext)
    | none =>
      have hidle : S.commit i = S := by
        unfold Sys.nextCall at hnext
        unfold Sys.commit
        split at hnext
        · cases hnext
        · rfl
      rw [hidle]
      exact h

/-- A process starts a program, commits `n` of its calls and stops. -/
def Sys.turn (S : Sys ι ℓ σ) (i : ι) (p : Prog ℓ σ Unit) (n : ℕ) : Sys ι ℓ σ :=
  let S' := (S.start i p).commits (List.replicate n i)
  S'.set i S'.store none

@[simp] theorem Sys.proc_commits_of_ne {S : Sys ι ℓ σ} {i j : ι} {n : ℕ} (h : j ≠ i) :
    (S.commits (List.replicate n i)).proc j = S.proc j := by
  induction n generalizing S with
  | zero => rfl
  | succ n ih => exact (ih (S := S.commit i)).trans (Sys.proc_commit_of_ne h)

/-- Whoever is idle before a turn is idle after it. -/
theorem Sys.idle_turn {S : Sys ι ℓ σ} {i j : ι} {p : Prog ℓ σ Unit} {n : ℕ} (h : S.proc j = none) :
    (S.turn i p n).proc j = none := by
  by_cases hj : j = i
  · subst hj
    exact Function.update_self ..
  · have hcommits : ((S.start i p).commits (List.replicate n i)).proc j = S.proc j := by simp [hj]
    exact (Function.update_of_ne hj _ _).trans (hcommits.trans h)

theorem Reach.turn {starts : ι → Prog ℓ σ Unit → Prop} {allow : Sys ι ℓ σ → Move ι ℓ → Prop} {S₀ S : Sys ι ℓ σ} {i : ι}
    {p : Prog ℓ σ Unit} {n : ℕ} (h : Reach starts allow S₀ S) (hi : S.proc i = none) (hp : starts i p)
    (ha : allow S (.start i)) (hcommits : (S.start i p).Permits allow (List.replicate n i))
    (hstop : allow ((S.start i p).commits (List.replicate n i)) (.stop i)) : Reach starts allow S₀ (S.turn i p n) :=
  ((h.step (.start hi hp) ha).permits hcommits).step .stop hstop

theorem Reach.commits {starts : ι → Prog ℓ σ Unit → Prop} {S₀ S : Sys ι ℓ σ}
    (h : Reach starts (fun _ _ => True) S₀ S) (is : List ι) : Reach starts (fun _ _ => True) S₀ (S.commits is) := by
  induction is generalizing S with
  | nil => exact h
  | cons i is ih => exact ih (h.commit i)

/-- A process that runs while the others stand still. -/
theorem reach_exec {starts : ι → Prog ℓ σ Unit → Prop} {allow : Sys ι ℓ σ → Move ι ℓ → Prop} {i : ι}
    {p : Prog ℓ σ Unit} {s s' : σ} {es : List (Event ℓ σ)} {o : Outcome Unit} (h : Exec p s es s' o)
    {P : ι → Option (Prog ℓ σ Unit)}
    (ha : ∀ e ∈ es, ∀ S : Sys ι ℓ σ, S.store = e.pre → (∀ j, j ≠ i → S.proc j = P j) →
      allow S (.commit i e.lbl) ∧ allow S (.fault i e.lbl))
    (hstop : ∀ S, allow S (.stop i)) :
    ∃ q, Reach starts allow ⟨s, Function.update P i (some p)⟩ ⟨s', Function.update P i q⟩ := by
  have step : ∀ {m : Move ι ℓ} {S T U : Sys ι ℓ σ}, Step starts S m T → allow S m → Reach starts allow T U →
      Reach starts allow S U := fun hs hm hr => (Reach.refl.step hs hm).trans hr
  have hset : ∀ (t t' : σ) (q q' : Option (Prog ℓ σ Unit)),
      Sys.set ⟨t, Function.update P i q⟩ i t' q' = ⟨t', Function.update P i q'⟩ := fun t t' q q' => by
    rw [Sys.set, Function.update_idem]
  have hrest : ∀ (t : σ) (q : Option (Prog ℓ σ Unit)), ∀ j, j ≠ i →
      (⟨t, Function.update P i q⟩ : Sys ι ℓ σ).proc j = P j := fun t q j hj => Function.update_of_ne hj _ _
  induction h with
  | ret a s => exact ⟨_, .refl⟩
  | raise s => exact ⟨_, .refl⟩
  | @ok l post next fault s es s' o _ ih =>
    obtain ⟨q, hq⟩ := ih fun e he => ha e (List.mem_cons_of_mem _ he)
    have hs : Step starts ⟨s, Function.update P i (some (.call l post next fault))⟩ (.commit i l) _ :=
      .commit (Function.update_self i _ P)
    rw [hset] at hs
    exact ⟨q, step hs (ha _ List.mem_cons_self _ rfl (hrest s _)).1 hq⟩
  | @fault l post next fault s es s' o _ ih =>
    obtain ⟨q, hq⟩ := ih fun e he => ha e (List.mem_cons_of_mem _ he)
    have hs : Step starts ⟨s, Function.update P i (some (.call l post next fault))⟩ (.fault i l) _ :=
      .fault (Function.update_self i _ P)
    rw [hset] at hs
    exact ⟨q, step hs (ha _ List.mem_cons_self _ rfl (hrest s _)).2 hq⟩
  | @crash l post next fault s =>
    have hs : Step starts ⟨s, Function.update P i (some (.call l post next fault))⟩ (.stop i) _ := .stop
    rw [hset] at hs
    exact ⟨none, step hs (hstop _) .refl⟩

/-- The runs of one process are among the runs of a system. -/
theorem Run.reach {κ : Type} {starts : ι → Prog ℓ σ Unit → Prop} {allow : Sys ι ℓ σ → Move ι ℓ → Prop}
    {prog : κ → Prog ℓ σ Unit} {init s : σ} {segs : List (Seg κ ℓ σ)} (h : Run prog init segs s) (i : ι)
    (hp : ∀ k, (∃ g ∈ segs, g.input = k) → starts i (prog k))
    (ha : ∀ g ∈ segs, ∀ e ∈ g.events, ∀ S : Sys ι ℓ σ, S.store = e.pre → (∀ j, j ≠ i → S.proc j = none) →
      allow S (.commit i e.lbl) ∧ allow S (.fault i e.lbl))
    (hb : ∀ S, allow S (.start i) ∧ allow S (.stop i)) : Reach starts allow (Sys.idle init) (Sys.idle s) := by
  induction h with
  | nil => exact .refl
  | @snoc segs t k es s' o _ hx ih =>
    have hlast : (⟨k, t, es, s', o⟩ : Seg κ ℓ σ) ∈ segs ++ [⟨k, t, es, s', o⟩] := by simp
    have hreach := ih (fun k ⟨g, hg, hk⟩ => hp k ⟨g, List.mem_append_left _ hg, hk⟩)
      fun g hg => ha g (List.mem_append_left _ hg)
    have hstart : Step starts (Sys.idle t) (.start i) _ := .start rfl (hp k ⟨_, hlast, rfl⟩)
    obtain ⟨q, hq⟩ := reach_exec hx (fun e he => ha _ hlast e he) (fun S => (hb S).2)
    refine (((hreach.step hstart (hb _).1).trans hq).step (.stop (i := i)) (hb _).2).trans ?_
    have hidle : Sys.set ⟨s', Function.update (fun _ => none) i q⟩ i s' none = Sys.idle s' := by
      simp only [Sys.set, Sys.idle, Function.update_idem, Sys.mk.injEq, true_and]
      exact Function.update_eq_self i fun _ => none
    exact hidle ▸ .refl

/-! ## Proof outlines -/

/-- The assertion of the next call holds. -/
def Prog.entry (A : ℓ → σ → Prop) : Prog ℓ σ α → σ → Prop
  | .call l _ _ _, s => A l s
  | _, _ => True

def Outline (I : σ → Prop) (A : ℓ → σ → Prop) (G : ℓ → σ → σ → Prop) : Prog ℓ σ α → Prop
  | .ret _ => True
  | .raise => True
  | .call l post next fault =>
    (∀ s, I s → A l s → I (post s) ∧ G l s (post s) ∧ (next s).entry A (post s) ∧ Outline I A G (next s)) ∧
      Outline I A G fault ∧ ∀ s, I s → fault.entry A s

/-- A program whose first call relies on nothing. -/
def Prog.Free (I : σ → Prop) (A : ℓ → σ → Prop) (p : Prog ℓ σ α) : Prop := ∀ s, I s → p.entry A s

variable {I : σ → Prop} {A : ℓ → σ → Prop} {G : ℓ → σ → σ → Prop}

theorem entry_bind {p : Prog ℓ σ α} {k : α → Prog ℓ σ β} (hk : ∀ a, (k a).Free I A) {s : σ} (hI : I s)
    (h : p.entry A s) : (p.bind k).entry A s := by
  cases p with
  | ret a => exact hk a s hI
  | raise => trivial
  | call l post next fault => exact h

theorem entry_tryCatch {p q : Prog ℓ σ α} (hq : q.Free I A) {s : σ} (hI : I s) (h : p.entry A s) :
    (p.tryCatch q).entry A s := by
  cases p with
  | ret a => trivial
  | raise => exact hq s hI
  | call l post next fault => exact h

theorem free_bind {p : Prog ℓ σ α} {k : α → Prog ℓ σ β} (hp : p.Free I A) (hk : ∀ a, (k a).Free I A) :
    (p.bind k).Free I A := fun s hI => entry_bind hk hI (hp s hI)

theorem free_forEach {body : β → Prog ℓ σ Unit} (hb : ∀ x, (body x).Free I A) :
    ∀ xs : List β, (Prog.forEach xs body).Free I A
  | [] => fun _ _ => trivial
  | x :: xs => free_bind (hb x) fun _ => free_forEach hb xs

theorem free_foldEach {body : α → β → Prog ℓ σ α} (hb : ∀ a x, (body a x).Free I A) :
    ∀ (xs : List β) (a : α), (Prog.foldEach xs a body).Free I A
  | [], _ => fun _ _ => trivial
  | x :: xs, a => free_bind (hb a x) fun a' => free_foldEach hb xs a'

theorem outline_bind {p : Prog ℓ σ α} {k : α → Prog ℓ σ β} (hp : Outline I A G p) (hk : ∀ a, Outline I A G (k a))
    (hfree : ∀ a, (k a).Free I A) : Outline I A G (p.bind k) := by
  induction p with
  | ret a => exact hk a
  | raise => trivial
  | call l post next fault ihn ihf =>
    refine ⟨fun s hI hA => ?_, ihf hp.2.1, fun s hI => entry_bind hfree hI (hp.2.2 s hI)⟩
    obtain ⟨hI', hG, he, ho⟩ := hp.1 s hI hA
    exact ⟨hI', hG, entry_bind hfree hI' he, ihn s ho⟩

theorem outline_tryCatch {p q : Prog ℓ σ α} (hp : Outline I A G p) (hq : Outline I A G q) (hfree : q.Free I A) :
    Outline I A G (p.tryCatch q) := by
  induction p with
  | ret a => trivial
  | raise => exact hq
  | call l post next fault ihn ihf =>
    refine ⟨fun s hI hA => ?_, ihf hp.2.1, fun s hI => entry_tryCatch hfree hI (hp.2.2 s hI)⟩
    obtain ⟨hI', hG, he, ho⟩ := hp.1 s hI hA
    exact ⟨hI', hG, entry_tryCatch hfree hI' he, ihn s ho⟩

theorem outline_txn {l : ℓ} {f : σ → Option (α × σ)} (hn : ∀ s, I s → G l s s)
    (hs : ∀ s a s', I s → A l s → f s = some (a, s') → I s' ∧ G l s s') : Outline I A G (Prog.txn l f) := by
  refine ⟨fun s hI hA => ?_, trivial, fun _ _ => trivial⟩
  cases hf : f s with
  | none => simpa [hf, Prog.entry, Outline] using ⟨hI, hn s hI⟩
  | some r =>
    obtain ⟨a, s'⟩ := r
    simpa [hf, Prog.entry, Outline] using hs s a s' hI hA hf

theorem outline_read {l : ℓ} {g : σ → α} (hG : ∀ s, I s → G l s s) : Outline I A G (Prog.read l g) :=
  ⟨fun s hI _ => ⟨hI, hG s hI, trivial, trivial⟩, trivial, fun _ _ => trivial⟩

theorem outline_write {l : ℓ} {g : σ → σ} (h : ∀ s, I s → A l s → I (g s) ∧ G l s (g s)) :
    Outline I A G (Prog.write l g) :=
  ⟨fun s hI hA => ⟨(h s hI hA).1, (h s hI hA).2, trivial, trivial⟩, trivial, fun _ _ => trivial⟩

theorem outline_ofOption (o : Option α) : Outline I A G (Prog.ofOption o : Prog ℓ σ α) := by
  cases o <;> trivial

theorem free_ofOption (o : Option α) : (Prog.ofOption o : Prog ℓ σ α).Free I A := by
  cases o <;> exact fun _ _ => trivial

theorem outline_forEach {body : β → Prog ℓ σ Unit} (hb : ∀ x, Outline I A G (body x))
    (hfree : ∀ x, (body x).Free I A) : ∀ xs : List β, Outline I A G (Prog.forEach xs body)
  | [] => trivial
  | x :: xs => outline_bind (hb x) (fun _ => outline_forEach hb hfree xs) (fun _ => free_forEach hfree xs)

theorem outline_foldEach {body : α → β → Prog ℓ σ α} (hb : ∀ a x, Outline I A G (body a x))
    (hfree : ∀ a x, (body a x).Free I A) : ∀ (xs : List β) (a : α), Outline I A G (Prog.foldEach xs a body)
  | [], _ => trivial
  | x :: xs, a => outline_bind (hb a x) (fun a' => outline_foldEach hb hfree xs a') (fun a' => free_foldEach hfree xs a')

/-- A call together with what follows it, when the next assertion is one that the call established. -/
theorem outline_txn_bind {l : ℓ} {f : σ → Option (α × σ)} {k : α → Prog ℓ σ β} (hn : ∀ s, I s → G l s s)
    (hs : ∀ s a s', I s → A l s → f s = some (a, s') → I s' ∧ G l s s' ∧ (k a).entry A s')
    (hk : ∀ a, Outline I A G (k a)) : Outline I A G ((Prog.txn l f).bind k) := by
  refine ⟨fun s hI hA => ?_, trivial, fun _ _ => trivial⟩
  cases hf : f s with
  | none => simpa [hf, Prog.entry, Outline] using ⟨hI, hn s hI⟩
  | some r =>
    obtain ⟨a, s'⟩ := r
    obtain ⟨hI', hG, he⟩ := hs s a s' hI hA hf
    simpa [hf] using ⟨hI', hG, he, hk a⟩

theorem outline_read_bind {l : ℓ} {g : σ → α} {k : α → Prog ℓ σ β} (hG : ∀ s, I s → G l s s)
    (he : ∀ s, I s → A l s → (k (g s)).entry A s) (hk : ∀ a, Outline I A G (k a)) :
    Outline I A G ((Prog.read l g).bind k) :=
  ⟨fun s hI hA => ⟨hI, hG s hI, he s hI hA, hk _⟩, trivial, fun _ _ => trivial⟩

theorem outline_write_bind {l : ℓ} {g : σ → σ} {k : Unit → Prog ℓ σ β}
    (h : ∀ s, I s → A l s → I (g s) ∧ G l s (g s) ∧ (k ()).entry A (g s)) (hk : Outline I A G (k ())) :
    Outline I A G ((Prog.write l g).bind k) :=
  ⟨fun s hI hA => ⟨(h s hI hA).1, (h s hI hA).2.1, (h s hI hA).2.2, hk⟩, trivial, fun _ _ => trivial⟩

/-! ## Programs that start anywhere -/

/-- An outline from which the program's first call is free. -/
abbrev Prog.Standalone (I : σ → Prop) (A : ℓ → σ → Prop) (G : ℓ → σ → σ → Prop) (p : Prog ℓ σ α) : Prop :=
  Outline I A G p ∧ p.Free I A

theorem standalone_ret (a : α) : (Prog.ret a : Prog ℓ σ α).Standalone I A G := ⟨trivial, fun _ _ => trivial⟩

theorem standalone_raise : (Prog.raise : Prog ℓ σ α).Standalone I A G := ⟨trivial, fun _ _ => trivial⟩

theorem standalone_ofOption (o : Option α) : (Prog.ofOption o : Prog ℓ σ α).Standalone I A G :=
  ⟨outline_ofOption o, free_ofOption o⟩

theorem standalone_bind {p : Prog ℓ σ α} {k : α → Prog ℓ σ β} (hp : p.Standalone I A G)
    (hk : ∀ a, (k a).Standalone I A G) : (p.bind k).Standalone I A G :=
  ⟨outline_bind hp.1 (fun a => (hk a).1) fun a => (hk a).2, free_bind hp.2 fun a => (hk a).2⟩

theorem standalone_tryCatch {p q : Prog ℓ σ α} (hp : p.Standalone I A G) (hq : q.Standalone I A G) :
    (p.tryCatch q).Standalone I A G :=
  ⟨outline_tryCatch hp.1 hq.1 hq.2, fun s hI => entry_tryCatch hq.2 hI (hp.2 s hI)⟩

theorem standalone_txn {l : ℓ} {f : σ → Option (α × σ)} (hA : ∀ s, I s → A l s) (hn : ∀ s, I s → G l s s)
    (hs : ∀ s a s', I s → f s = some (a, s') → I s' ∧ G l s s') : (Prog.txn l f).Standalone I A G :=
  ⟨outline_txn hn fun s a s' hI _ hf => hs s a s' hI hf, hA⟩

theorem standalone_read {l : ℓ} {g : σ → α} (hA : ∀ s, I s → A l s) (hG : ∀ s, I s → G l s s) :
    (Prog.read l g).Standalone I A G := ⟨outline_read hG, hA⟩

theorem standalone_write {l : ℓ} {g : σ → σ} (hA : ∀ s, I s → A l s) (h : ∀ s, I s → I (g s) ∧ G l s (g s)) :
    (Prog.write l g).Standalone I A G := ⟨outline_write fun s hI _ => h s hI, hA⟩

/-! ## Soundness -/

/-- The store invariant holds and every running program has an outline whose next assertion holds. -/
structure Sound (I : σ → Prop) (A : ℓ → σ → Prop) (G : ℓ → σ → σ → Prop) (S : Sys ι ℓ σ) : Prop where
  inv : I S.store
  outline : ∀ i p, S.proc i = some p → Outline I A G p ∧ p.entry A S.store

/-- A committed step of one process leaves the next assertion of every other process standing. -/
def Stable (I : σ → Prop) (A : ℓ → σ → Prop) (G : ℓ → σ → σ → Prop) (allow : Sys ι ℓ σ → Move ι ℓ → Prop) : Prop :=
  ∀ (S : Sys ι ℓ σ) (i j : ι) (l : ℓ) (s' : σ) (q : Prog ℓ σ Unit), i ≠ j → S.proc j = some q →
    allow S (.commit i l) → I S.store → G l S.store s' → q.entry A S.store → q.entry A s'

/-- The same with assertions and step properties that may differ from process to process. -/
structure SoundBy (I : σ → Prop) (A : ι → ℓ → σ → Prop) (G : ι → ℓ → σ → σ → Prop) (S : Sys ι ℓ σ) : Prop where
  inv : I S.store
  outline : ∀ i p, S.proc i = some p → Outline I (A i) (G i) p ∧ p.entry (A i) S.store

def StableBy (I : σ → Prop) (A : ι → ℓ → σ → Prop) (G : ι → ℓ → σ → σ → Prop)
    (allow : Sys ι ℓ σ → Move ι ℓ → Prop) : Prop :=
  ∀ (S : Sys ι ℓ σ) (i j : ι) (l : ℓ) (s' : σ) (q : Prog ℓ σ Unit), i ≠ j → S.proc j = some q →
    allow S (.commit i l) → I S.store → G i l S.store s' → q.entry (A j) S.store → q.entry (A j) s'

variable {starts : ι → Prog ℓ σ Unit → Prop} {allow : Sys ι ℓ σ → Move ι ℓ → Prop} {S S' : Sys ι ℓ σ}
  {m : Move ι ℓ}

/-- The other steps leave the store as it is. -/
theorem Step.store_eq (hs : Step starts S m S') (hm : ∀ i l, m ≠ .commit i l) : S'.store = S.store := by
  cases hs with
  | commit _ => exact absurd rfl (hm _ _)
  | start _ _ => rfl
  | fault _ => rfl
  | stop => rfl

section By

variable {A : ι → ℓ → σ → Prop} {G : ι → ℓ → σ → σ → Prop}

omit [DecidableEq ι] in
theorem SoundBy.idle {s : σ} (h : I s) : SoundBy I A G (Sys.idle s : Sys ι ℓ σ) := ⟨h, by simp [Sys.idle]⟩

/-- The process `i` continues with `p`, the others stay where they are. -/
theorem SoundBy.set {s' : σ} {i : ι} {p : Option (Prog ℓ σ Unit)} (h : SoundBy I A G S) (hI : I s')
    (hp : ∀ q, p = some q → Outline I (A i) (G i) q ∧ q.entry (A i) s')
    (hother : ∀ j q, j ≠ i → S.proc j = some q → q.entry (A j) S.store → q.entry (A j) s') :
    SoundBy I A G (S.set i s' p) := by
  refine ⟨hI, fun j q hq => ?_⟩
  simp only [Sys.set] at hq ⊢
  by_cases hj : j = i
  · subst hj
    rw [Function.update_self] at hq
    exact hp q hq
  · rw [Function.update_of_ne hj] at hq
    obtain ⟨hoq, heq⟩ := h.outline j q hq
    exact ⟨hoq, hother j q hj hq heq⟩

theorem Step.soundBy (hstart : ∀ i p, starts i p → Outline I (A i) (G i) p ∧ p.Free I (A i))
    (hst : StableBy I A G allow) (h : SoundBy I A G S) (hs : Step starts S m S') (ha : allow S m) :
    SoundBy I A G S' := by
  cases hs with
  | @start i p hidle hp =>
    refine h.set h.inv (fun q hq => ?_) fun _ _ _ _ he => he
    obtain rfl := Option.some.inj hq
    exact ⟨(hstart i p hp).1, (hstart i p hp).2 _ h.inv⟩
  | @commit i l post next fault hi =>
    obtain ⟨ho, hA⟩ := h.outline i _ hi
    obtain ⟨hI', hG, he, hn⟩ := ho.1 S.store h.inv hA
    refine h.set hI' (fun q hq => ?_) fun j q hj hq heq => hst S i j l _ q (Ne.symm hj) hq ha h.inv hG heq
    obtain rfl := Option.some.inj hq
    exact ⟨hn, he⟩
  | @fault i l post next fault hi =>
    refine h.set h.inv (fun q hq => ?_) fun _ _ _ _ he => he
    obtain rfl := Option.some.inj hq
    exact ⟨(h.outline i _ hi).1.2.1, (h.outline i _ hi).1.2.2 _ h.inv⟩
  | @stop i => exact h.set h.inv nofun fun _ _ _ _ he => he

theorem SoundBy.commit (h : SoundBy I A G S) {i : ι} {l : ℓ} (hs : Step starts S (.commit i l) S') :
    G i l S.store S'.store := by
  cases hs with
  | commit hi =>
    obtain ⟨ho, hA⟩ := h.outline i _ hi
    exact (ho.1 S.store h.inv hA).2.1

/-- Beside the outlines, an invariant `J` of the permitted steps. -/
theorem Reach.invariantBy {S₀ : Sys ι ℓ σ} {J : σ → Prop}
    (hstart : ∀ i p, starts i p → Outline I (A i) (G i) p ∧ p.Free I (A i)) (hst : StableBy I A G allow)
    (hJ : ∀ (S : Sys ι ℓ σ) i l s', I S.store → allow S (.commit i l) → G i l S.store s' → J S.store → J s')
    (h0 : SoundBy I A G S₀) (hJ0 : J S₀.store) (h : Reach starts allow S₀ S) : SoundBy I A G S ∧ J S.store := by
  induction h with
  | refl => exact ⟨h0, hJ0⟩
  | @step S m S' _ hs ha ih =>
    refine ⟨hs.soundBy hstart hst ih.1 ha, ?_⟩
    cases m with
    | commit i l => exact hJ S i l _ ih.1.inv ha (ih.1.commit hs) ih.2
    | _ => exact hs.store_eq nofun ▸ ih.2

end By

omit [DecidableEq ι] in
theorem sound_iff : Sound I A G S ↔ SoundBy I (fun _ => A) (fun _ => G) S :=
  ⟨fun h => ⟨h.inv, h.outline⟩, fun h => ⟨h.inv, h.outline⟩⟩

theorem Step.sound (hstart : ∀ i p, starts i p → Outline I A G p ∧ p.Free I A) (hst : Stable I A G allow)
    (h : Sound I A G S) (hs : Step starts S m S') (ha : allow S m) : Sound I A G S' :=
  sound_iff.2 (hs.soundBy (A := fun _ => A) (G := fun _ => G) hstart hst (sound_iff.1 h) ha)

omit [DecidableEq ι] in
theorem Sound.idle {s : σ} (h : I s) : Sound I A G (Sys.idle s : Sys ι ℓ σ) := sound_iff.2 (.idle h)

theorem Reach.invariant {S₀ : Sys ι ℓ σ} (hstart : ∀ i p, starts i p → Outline I A G p ∧ p.Free I A)
    (hst : Stable I A G allow) (h0 : Sound I A G S₀) (h : Reach starts allow S₀ S) : Sound I A G S := by
  induction h with
  | refl => exact h0
  | step _ hs ha ih => exact hs.sound hstart hst ih ha

/-- A committed call of a sound configuration satisfies the step property. -/
theorem Sound.commit (h : Sound I A G S) {i : ι} {l : ℓ} (hs : Step starts S (.commit i l) S') :
    G l S.store S'.store := (sound_iff.1 h).commit (A := fun _ => A) (G := fun _ => G) hs

/-! ## Outlines without assertions -/

/-- No call relies on anything but the store invariant. -/
def noAssert : ℓ → σ → Prop := fun _ _ => True

theorem entry_noAssert (p : Prog ℓ σ α) (s : σ) : p.entry noAssert s := by
  cases p <;> trivial

theorem free_noAssert (p : Prog ℓ σ α) : p.Free I noAssert := fun s _ => entry_noAssert p s

omit [DecidableEq ι] in
theorem stable_noAssert : Stable I noAssert G allow := fun _ _ _ _ _ q _ _ _ _ _ _ => entry_noAssert q _

/-- Every call of the program keeps the invariant and the step property from any store. -/
abbrev Keeps (I : σ → Prop) (G : ℓ → σ → σ → Prop) (p : Prog ℓ σ α) : Prop := Outline I noAssert G p

theorem keeps_call {l : ℓ} {post : σ → σ} {g : σ → α} (h : ∀ s, I s → I (post s) ∧ G l s (post s)) :
    Keeps I G (.call l post (fun s => .ret (g s)) .raise) :=
  ⟨fun s hI _ => ⟨(h s hI).1, (h s hI).2, trivial, trivial⟩, trivial, fun _ _ => trivial⟩

theorem keeps_bind {p : Prog ℓ σ α} {k : α → Prog ℓ σ β} (hp : Keeps I G p) (hk : ∀ a, Keeps I G (k a)) :
    Keeps I G (p.bind k) := outline_bind hp hk fun a => free_noAssert (k a)

theorem keeps_tryCatch {p q : Prog ℓ σ α} (hp : Keeps I G p) (hq : Keeps I G q) : Keeps I G (p.tryCatch q) :=
  outline_tryCatch hp hq (free_noAssert q)

theorem keeps_forEach {body : β → Prog ℓ σ Unit} (hb : ∀ x, Keeps I G (body x)) (xs : List β) :
    Keeps I G (Prog.forEach xs body) := outline_forEach hb (fun x => free_noAssert (body x)) xs

theorem keeps_foldEach {body : α → β → Prog ℓ σ α} (hb : ∀ a x, Keeps I G (body a x)) (xs : List β) (a : α) :
    Keeps I G (Prog.foldEach xs a body) := outline_foldEach hb (fun a x => free_noAssert (body a x)) xs a

/-- What every call does, known from any store, gives every invariant that such calls keep. -/
theorem keeps_mono {J : σ → Prop} {H : ℓ → σ → σ → Prop} {p : Prog ℓ σ α} (hp : Keeps I G p)
    (hJ : ∀ s, J s → I s) (h : ∀ l s s', J s → G l s s' → J s' ∧ H l s s') : Keeps J H p := by
  induction p with
  | ret a => trivial
  | raise => trivial
  | call l post next fault ihn ihf =>
    refine ⟨fun s hs _ => ?_, ihf hp.2.1, fun s _ => entry_noAssert fault s⟩
    obtain ⟨-, hG, -, hn⟩ := hp.1 s (hJ s hs) trivial
    exact ⟨(h l s _ hs hG).1, (h l s _ hs hG).2, entry_noAssert _ _, ihn s hn⟩

/-- A program none of whose calls needs its assertion. -/
theorem outline_of_keeps {G' : ℓ → σ → σ → Prop} {p : Prog ℓ σ α} (hp : Keeps I G p)
    (h : ∀ l s s', I s → G l s s' → G' l s s' ∧ ∀ t, A l t) : Outline I A G' p ∧ p.Free I A := by
  induction p with
  | ret a => exact ⟨trivial, fun _ _ => trivial⟩
  | raise => exact ⟨trivial, fun _ _ => trivial⟩
  | call l post next fault ihn ihf =>
    refine ⟨⟨fun s hI _ => ?_, (ihf hp.2.1).1, (ihf hp.2.1).2⟩, fun s hI => ?_⟩
    · obtain ⟨hI', hG, -, hn⟩ := hp.1 s hI trivial
      exact ⟨hI', (h l s _ hI hG).1, (ihn s hn).2 _ hI', (ihn s hn).1⟩
    · exact (h l s _ hI (hp.1 s hI trivial).2.1).2 s

/-- A program whose calls keep the invariant, as a part of a program that runs alone. -/
theorem wp_of_keeps {K : Contract ℓ σ} {p : Prog ℓ σ α} (hp : Keeps I G p)
    (hc : ∀ l s s', I s → G l s s' → K.commit l s s') (hx : ∀ l s, I s → K.mayFault l s → K.atCrash s) :
    ∀ {s}, I s → wp K p (fun _ => I) I s := by
  induction p with
  | ret a => exact id
  | raise => exact id
  | call l post next fault ihn ihf =>
    intro s hs
    obtain ⟨hI, hG, -, hn⟩ := hp.1 s hs trivial
    exact ⟨fun _ => ⟨hc l s _ hs hG, ihn s hn hI⟩, fun hm => ⟨hx l s hs hm, ihf hp.2.1 hs⟩⟩

/-- Whatever raises or crashes, the invariant holds at the end. -/
theorem Exec.inv_of_keeps {p : Prog ℓ σ α} {s s' : σ} {es : List (Event ℓ σ)} {o : Outcome α}
    (h : Exec p s es s' o) (hp : Keeps I G p) (hI : I s) : I s' := by
  have hend := (wp_sound h (wp_of_keeps (K := ⟨fun _ _ _ => True, fun _ _ => True, I, fun _ _ => True⟩) hp
    (fun _ _ _ _ _ => trivial) (fun _ _ hI _ => hI) hI) fun _ _ => ⟨fun _ => trivial, fun _ => trivial⟩).2
  cases o with
  | done _ => exact hend
  | raised => exact hend
  | crashed => exact hend

theorem Reach.invariant_of_keeps {s₀ : σ} (hstart : ∀ i p, starts i p → Keeps I G p) (h0 : I s₀)
    (h : Reach starts allow (Sys.idle s₀) S) : Sound I noAssert G S :=
  Reach.invariant (fun i p hp => ⟨hstart i p hp, free_noAssert p⟩) stable_noAssert (Sound.idle h0) h

/-- Beside the invariant of the calls, one that the permitted steps keep. -/
theorem Reach.inv_of_keeps {J : σ → Prop} {s₀ : σ} (hstart : ∀ i p, starts i p → Keeps I G p) (h0 : I s₀) (hJ0 : J s₀)
    (hJ : ∀ (S : Sys ι ℓ σ) i l s', allow S (.commit i l) → I S.store → G l S.store s' → J S.store → J s')
    (h : Reach starts allow (Sys.idle s₀) S) : I S.store ∧ J S.store := by
  have hst : StableBy I (fun _ : ι => noAssert) (fun _ => G) allow := fun _ _ _ _ _ q _ _ _ _ _ _ => entry_noAssert q _
  obtain ⟨hsound, hj⟩ := Reach.invariantBy (J := J) (fun j p hp => ⟨hstart j p hp, free_noAssert p⟩) hst
    (fun S i l s' hI ha hG hj => hJ S i l s' ha hI hG hj) (SoundBy.idle h0) hJ0 h
  exact ⟨hsound.inv, hj⟩

/-- A committed call satisfies the step property of its own process. -/
theorem Reach.commit_of_keeps {H : ι → ℓ → σ → σ → Prop} {s₀ : σ} {i : ι} {l : ℓ}
    (hstart : ∀ i p, starts i p → Keeps I (H i) p) (h0 : I s₀) (h : Reach starts allow (Sys.idle s₀) S)
    (hs : Step starts S (.commit i l) S') : H i l S.store S'.store := by
  have hst : StableBy I (fun _ => noAssert) H allow := fun _ _ _ _ _ q _ _ _ _ _ _ => entry_noAssert q _
  exact (Reach.invariantBy (J := fun _ => True) (fun j p hp => ⟨hstart j p hp, free_noAssert p⟩) hst
    (fun _ _ _ _ _ _ _ _ => trivial) (SoundBy.idle h0) trivial h).1.commit hs

end Transact
