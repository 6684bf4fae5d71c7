import TalonX.Transact.Prog

/-!
# A program logic for one client with faults

`wp K p Q R s`: when `p` runs alone from `s`, every committed call keeps to the contract `K` and the program ends in
`Q` when it returns, in `R` when it raises and in `K.atCrash` when it crashes, as long as calls are reached, raise or
crash the process only where `K` allows it.

- the rules of the constructs (`wp_bind`, `wp_then`, `wp_tryCatch`, `wp_txn`, `wp_forEach`, `wp_foldEach`,
  `wp_filterEach`);
- soundness for runs of one program (`wp_sound`, `wp_quiet` without faults) and for a process that starts one program
  after the other (`Run.invariant`).
-/

set_option autoImplicit false

namespace Transact

open Prog

variable {ℓ σ α β ι : Type}

structure Contract (ℓ σ : Type) where
  /-- What a committed call does to the store. -/
  commit : ℓ → σ → σ → Prop
  /-- Where the environment may make a call raise, or crash the process. -/
  mayFault : ℓ → σ → Prop
  /-- What a crash leaves behind. -/
  atCrash : σ → Prop
  /-- Where a call may be reached. -/
  mayReach : ℓ → σ → Prop := fun _ _ => True

/-- The event is within what the contract allows the run. -/
structure Event.Allowed (K : Contract ℓ σ) (e : Event ℓ σ) : Prop where
  reach : e.fault = .none → K.mayReach e.lbl e.pre
  fault : e.fault ≠ .none → K.mayFault e.lbl e.pre

/-- The event, when it is a commit, is one the contract allows. -/
def Event.Kept (K : Contract ℓ σ) (e : Event ℓ σ) : Prop := e.fault = .none → K.commit e.lbl e.pre e.post

def wp (K : Contract ℓ σ) : Prog ℓ σ α → (α → σ → Prop) → (σ → Prop) → σ → Prop
  | .ret a, Q, _, s => Q a s
  | .raise, _, R, s => R s
  | .call l post next fault, Q, R, s =>
    (K.mayReach l s → K.commit l s (post s) ∧ wp K (next s) Q R (post s)) ∧
      (K.mayFault l s → K.atCrash s ∧ wp K fault Q R s)

variable {K : Contract ℓ σ}

/-! ## Rules -/

theorem wp_mono {p : Prog ℓ σ α} {Q Q' : α → σ → Prop} {R R' : σ → Prop} (hQ : ∀ a s, Q a s → Q' a s)
    (hR : ∀ s, R s → R' s) : ∀ {s}, wp K p Q R s → wp K p Q' R' s := by
  induction p with
  | ret a => exact hQ a _
  | raise => exact hR _
  | call l post next fault ihn ihf =>
    rintro s ⟨hn, hf⟩
    exact ⟨fun hr => ⟨(hn hr).1, ihn s (hn hr).2⟩, fun hm => ⟨(hf hm).1, ihf (hf hm).2⟩⟩

theorem wp_bind {p : Prog ℓ σ α} {k : α → Prog ℓ σ β} {Q : β → σ → Prop} {R : σ → Prop} :
    ∀ {s}, wp K p (fun a => wp K (k a) Q R) R s → wp K (p.bind k) Q R s := by
  induction p with
  | ret a => exact id
  | raise => exact id
  | call l post next fault ihn ihf =>
    rintro s ⟨hn, hf⟩
    exact ⟨fun hr => ⟨(hn hr).1, ihn s (hn hr).2⟩, fun hm => ⟨(hf hm).1, ihf (hf hm).2⟩⟩

/-- Sequencing: what holds after the first part is what the second part starts from. -/
theorem wp_then {p : Prog ℓ σ α} {k : α → Prog ℓ σ β} {I : α → σ → Prop} {Q : β → σ → Prop} {R : σ → Prop} {s : σ}
    (hp : wp K p I R s) (hk : ∀ a t, I a t → wp K (k a) Q R t) : wp K (p.bind k) Q R s :=
  wp_bind (wp_mono hk (fun _ h => h) hp)

theorem wp_tryCatch {p h : Prog ℓ σ α} {Q : α → σ → Prop} {R : σ → Prop} :
    ∀ {s}, wp K p Q (wp K h Q R) s → wp K (p.tryCatch h) Q R s := by
  induction p with
  | ret a => exact id
  | raise => exact id
  | call l post next fault ihn ihf =>
    rintro s ⟨hn, hf⟩
    exact ⟨fun hr => ⟨(hn hr).1, ihn s (hn hr).2⟩, fun hm => ⟨(hf hm).1, ihf (hf hm).2⟩⟩

/-- A call may count on being reached where the contract allows it. -/
theorem wp_of_reach {l : ℓ} {post : σ → σ} {next : σ → Prog ℓ σ α} {fault : Prog ℓ σ α} {Q : α → σ → Prop}
    {R : σ → Prop} {s : σ} (hf : K.mayFault l s → K.atCrash s ∧ wp K fault Q R s)
    (h : K.mayReach l s → wp K (.call l post next fault) Q R s) : wp K (.call l post next fault) Q R s :=
  ⟨fun hr => (h hr).1 hr, hf⟩

theorem wp_read {l : ℓ} {g : σ → α} {Q : α → σ → Prop} {R : σ → Prop} {s : σ} (hc : K.commit l s s) (hQ : Q (g s) s)
    (hf : K.mayFault l s → K.atCrash s ∧ R s) : wp K (Prog.read l g) Q R s :=
  ⟨fun _ => ⟨hc, hQ⟩, hf⟩

theorem wp_write {l : ℓ} {g : σ → σ} {Q : Unit → σ → Prop} {R : σ → Prop} {s : σ} (hc : K.commit l s (g s))
    (hQ : Q () (g s)) (hf : K.mayFault l s → K.atCrash s ∧ R s) : wp K (Prog.write l g) Q R s :=
  ⟨fun _ => ⟨hc, hQ⟩, hf⟩

/-- A transaction either commits, or is rolled back to a store the contract must accept as unchanged. -/
theorem wp_txn {l : ℓ} {f : σ → Option (α × σ)} {Q : α → σ → Prop} {R : σ → Prop} {s : σ}
    (hc : ∀ a s', f s = some (a, s') → K.commit l s s' ∧ Q a s') (hn : f s = none → K.commit l s s ∧ R s)
    (hf : K.mayFault l s → K.atCrash s ∧ R s) : wp K (Prog.txn l f) Q R s := by
  cases hfs : f s with
  | none =>
    refine ⟨fun _ => ⟨?_, ?_⟩, hf⟩
    · simpa [hfs] using (hn hfs).1
    · simpa [hfs, wp] using (hn hfs).2
  | some r =>
    obtain ⟨a, s'⟩ := r
    refine ⟨fun _ => ⟨?_, ?_⟩, hf⟩
    · simpa [hfs] using (hc a s' hfs).1
    · simpa [hfs, wp] using (hc a s' hfs).2

theorem wp_ofOption {o : Option α} {Q : α → σ → Prop} {R : σ → Prop} {s : σ} (hs : ∀ a, o = some a → Q a s)
    (hn : o = none → R s) : wp K (Prog.ofOption o) Q R s := by
  cases o with
  | none => exact hn rfl
  | some a => exact hs a rfl

/-- Loops: `J` is what holds before the remaining elements are treated. -/
theorem wp_forEach {body : β → Prog ℓ σ Unit} {R : σ → Prop} (J : List β → σ → Prop)
    (hstep : ∀ x xs s, J (x :: xs) s → wp K (body x) (fun _ => J xs) R s) :
    ∀ (xs : List β) {s}, J xs s → wp K (Prog.forEach xs body) (fun _ => J []) R s
  | [], _, h => h
  | x :: xs, _, h => wp_bind (wp_mono (fun _ _ h' => wp_forEach J hstep xs h') (fun _ h' => h') (hstep x xs _ h))

/-- Loops with an accumulator. -/
theorem wp_foldEach {body : α → β → Prog ℓ σ α} {R : σ → Prop} (J : List β → α → σ → Prop)
    (hstep : ∀ x xs a s, J (x :: xs) a s → wp K (body a x) (J xs) R s) :
    ∀ (xs : List β) {a s}, J xs a s → wp K (Prog.foldEach xs a body) (J []) R s
  | [], _, _, h => h
  | x :: xs, a, _, h => wp_bind (wp_mono (fun _ _ h' => wp_foldEach J hstep xs h') (fun _ h' => h') (hstep x xs a _ h))

/-- Loops that keep some of their elements: `ys` were kept and `xs` remain. -/
theorem wp_filterEach {body : β → Prog ℓ σ Bool} {R : σ → Prop} (J : List β → List β → σ → Prop)
    (hstep : ∀ ys x xs s, J ys (x :: xs) s → wp K (body x) (fun keep => J (if keep then ys ++ [x] else ys) xs) R s) :
    ∀ (xs ys : List β) {s}, J ys xs s → wp K (Prog.filterEach xs body) (fun zs => J (ys ++ zs) []) R s
  | [], ys, _, h => by
    simpa [Prog.filterEach, wp] using h
  | x :: xs, ys, s, h => by
    rw [Prog.filterEach]
    refine wp_then (hstep ys x xs s h) fun keep t ht => wp_then (wp_filterEach J hstep xs _ ht) fun zs u hu => ?_
    cases keep with
    | true => simpa [wp] using hu
    | false => simpa [wp] using hu

/-! ## Soundness -/

/-- What the contract says about a program that stopped. -/
def Ends (K : Contract ℓ σ) (Q : α → σ → Prop) (R : σ → Prop) : Outcome α → σ → Prop
  | .done a, s => Q a s
  | .raised, s => R s
  | .crashed, s => K.atCrash s

theorem wp_sound {p : Prog ℓ σ α} {Q : α → σ → Prop} {R : σ → Prop} {s s' : σ} {es : List (Event ℓ σ)}
    {o : Outcome α} (h : Exec p s es s' o) (hw : wp K p Q R s) (ha : ∀ e ∈ es, e.Allowed K) :
    (∀ e ∈ es, e.Kept K) ∧ Ends K Q R o s' := by
  induction h with
  | ret a s => exact ⟨by simp, hw⟩
  | raise s => exact ⟨by simp, hw⟩
  | ok _ ih =>
    have hn := hw.1 ((ha _ List.mem_cons_self).reach rfl)
    have hr := ih hn.2 (fun e he => ha e (List.mem_cons_of_mem _ he))
    refine ⟨fun e he => ?_, hr.2⟩
    rcases List.mem_cons.1 he with rfl | he
    · exact fun _ => hn.1
    · exact hr.1 e he
  | fault _ ih =>
    have hm := hw.2 ((ha _ List.mem_cons_self).fault (by simp))
    have hr := ih hm.2 (fun e he => ha e (List.mem_cons_of_mem _ he))
    refine ⟨fun e he => ?_, hr.2⟩
    rcases List.mem_cons.1 he with rfl | he
    · intro hn; simp at hn
    · exact hr.1 e he
  | crash =>
    have hm := hw.2 ((ha _ List.mem_cons_self).fault (by simp))
    refine ⟨fun e he => ?_, hm.1⟩
    rw [List.mem_singleton] at he
    subst he
    intro hn; simp at hn

/-- Nothing goes wrong, and every call does what `C` says. -/
def Contract.quiet (C : ℓ → σ → σ → Prop) : Contract ℓ σ where
  commit := C
  mayFault _ _ := False
  atCrash _ := False

section Quiet

variable {C : ℓ → σ → σ → Prop} {R : σ → Prop} {s : σ}

theorem wp_quiet_call {l : ℓ} {post : σ → σ} {g : σ → α} {Q : α → σ → Prop} (hc : C l s (post s))
    (h : Q (g s) (post s)) : wp (.quiet C) (.call l post (fun s => .ret (g s)) .raise) Q R s :=
  ⟨fun _ => ⟨hc, h⟩, False.elim⟩

theorem wp_quiet_write {l : ℓ} {g : σ → σ} {Q : Unit → σ → Prop} (hc : C l s (g s)) (h : Q () (g s)) :
    wp (.quiet C) (Prog.write l g) Q R s := wp_quiet_call hc h

theorem wp_quiet_read {l : ℓ} {g : σ → α} {Q : α → σ → Prop} (hc : C l s s) (h : Q (g s) s) :
    wp (.quiet C) (Prog.read l g) Q R s := wp_quiet_call hc h

theorem wp_quiet_txn {l : ℓ} {f : σ → Option (α × σ)} {Q : α → σ → Prop}
    (hs : ∀ a s', f s = some (a, s') → C l s s' ∧ Q a s') (hn : f s = none → C l s s ∧ R s) :
    wp (.quiet C) (Prog.txn l f) Q R s := wp_txn hs hn False.elim

/-- The run without faults returns or raises. -/
theorem wp_quiet {p : Prog ℓ σ α} {Q : α → σ → Prop} (h : wp (.quiet C) p Q R s) :
    (∀ e ∈ (exec p [] s).1, C e.lbl e.pre e.post) ∧
      ((∃ a, (exec p [] s).2.2 = .done a ∧ Q a (exec p [] s).2.1) ∨
        (exec p [] s).2.2 = .raised ∧ R (exec p [] s).2.1) := by
  obtain ⟨hkept, hend⟩ := wp_sound (exec_sound p [] s) h fun e he =>
    ⟨fun _ => trivial, fun hf => hf (fault_exec_nil p s e he)⟩
  refine ⟨fun e he => hkept e he (fault_exec_nil p s e he), ?_⟩
  cases ho : (exec p [] s).2.2 with
  | done a => exact .inl ⟨a, rfl, by rwa [ho] at hend⟩
  | raised => exact .inr ⟨rfl, by rwa [ho] at hend⟩
  | crashed =>
    rw [ho] at hend
    exact hend.elim

end Quiet

/-- A process that starts one program after the other: `Inv` holds between its programs, and every committed call of
every program keeps to the contract of its input, when each program is started at an admitted store and suffers only
the faults its contract allows. -/
theorem Run.invariant {prog : ι → Prog ℓ σ Unit} {init s : σ} {segs : List (Seg ι ℓ σ)} (K : ι → Contract ℓ σ)
    (Inv : σ → Prop) (Adm : ι → σ → Prop) (h0 : Inv init)
    (hcrash : ∀ i t, (K i).atCrash t → Inv t)
    (hstep : ∀ i t, Inv t → Adm i t → wp (K i) (prog i) (fun _ => Inv) Inv t)
    (h : Run prog init segs s)
    (ha : ∀ g ∈ segs, Adm g.input g.pre ∧ ∀ e ∈ g.events, e.Allowed (K g.input)) :
    Inv s ∧ ∀ g ∈ segs, Inv g.pre ∧ Inv g.post ∧ ∀ e ∈ g.events, e.Kept (K g.input) := by
  induction h with
  | nil => exact ⟨h0, by simp⟩
  | @snoc segs t i es t' o _ hx ih =>
    obtain ⟨hInv, hsegs⟩ := ih (fun g hg => ha g (List.mem_append_left _ hg))
    obtain ⟨hadm, hal⟩ := ha ⟨i, t, es, t', o⟩ (List.mem_append_right _ (List.mem_singleton.2 rfl))
    obtain ⟨hk, hend⟩ := wp_sound hx (hstep i t hInv hadm) hal
    have hInv' : Inv t' := by
      cases o with
      | done a => exact hend
      | raised => exact hend
      | crashed => exact hcrash i t' hend
    refine ⟨hInv', fun g hg => ?_⟩
    rcases List.mem_append.1 hg with hg | hg
    · exact hsegs g hg
    · rw [List.mem_singleton] at hg
      subst hg
      exact ⟨hInv, hInv', hk⟩

/-- What every program leaves behind when it returns. -/
theorem Run.ends {prog : ι → Prog ℓ σ Unit} {init s : σ} {segs : List (Seg ι ℓ σ)} (K : ι → Contract ℓ σ)
    (Inv : σ → Prop) (Adm : ι → σ → Prop) (Post : ι → σ → Prop) (h0 : Inv init)
    (hcrash : ∀ i t, (K i).atCrash t → Inv t)
    (hstep : ∀ i t, Inv t → Adm i t → wp (K i) (prog i) (fun _ t' => Inv t' ∧ Post i t') Inv t)
    (h : Run prog init segs s)
    (ha : ∀ g ∈ segs, Adm g.input g.pre ∧ ∀ e ∈ g.events, e.Allowed (K g.input)) :
    ∀ g ∈ segs, g.outcome = .done () → Post g.input g.post := by
  have hinv := Run.invariant K Inv Adm h0 hcrash
    (fun i t ht hadm => wp_mono (fun _ _ h => h.1) (fun _ h => h) (hstep i t ht hadm)) h ha
  intro g hg hdone
  have hend := (wp_sound (h.exec_of_mem hg) (hstep _ _ (hinv.2 g hg).1 (ha g hg).1) (ha g hg).2).2
  rw [hdone] at hend
  exact hend.2

end Transact
