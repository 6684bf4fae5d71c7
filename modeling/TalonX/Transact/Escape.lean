import TalonX.Transact.Prog

/-!
# Which exceptions escape

`EscapesAt P p`: an exception that leaves the program `p` was raised by a call whose label is in `P`; exceptions of the
other calls are handled inside.

- `escapesAt_bind`, `escapesAt_write`, `escapesAt_read`, `escapesAt_tryCatch`: the rules of the constructs;
- `Exec.raised_at`: the last call of a run that raises is one of `P`, and it is the one that raised.
-/

set_option autoImplicit false

namespace Transact

variable {ℓ σ α β : Type}

namespace Prog

def EscapesAt (P : ℓ → Prop) : Prog ℓ σ α → Prop
  | ret _ => True
  | raise => False
  | call l _ next fault => (∀ s, (next s).EscapesAt P) ∧ (fault = raise ∧ P l ∨ fault.EscapesAt P)

variable {P : ℓ → Prop}

theorem escapesAt_ret (a : α) : (ret a : Prog ℓ σ α).EscapesAt P := trivial

theorem escapesAt_write {l : ℓ} {g : σ → σ} (hl : P l) : (write l g).EscapesAt P :=
  ⟨fun _ => trivial, .inl ⟨rfl, hl⟩⟩

theorem escapesAt_read {l : ℓ} {g : σ → α} (hl : P l) : (read l g).EscapesAt P := ⟨fun _ => trivial, .inl ⟨rfl, hl⟩⟩

theorem escapesAt_bind {p : Prog ℓ σ α} {k : α → Prog ℓ σ β} (hp : p.EscapesAt P) (hk : ∀ a, (k a).EscapesAt P) :
    (p.bind k).EscapesAt P := by
  induction p with
  | ret a => exact hk a
  | raise => exact hp
  | call l post next fault ihn ihf =>
    obtain ⟨hn, hf⟩ := hp
    refine ⟨fun s => ihn s (hn s), ?_⟩
    rcases hf with ⟨hraise, hl⟩ | hf
    · exact .inl ⟨by rw [hraise]; rfl, hl⟩
    · exact .inr (ihf hf)

/-- Nothing escapes from a `try` whose handler lets nothing escape. -/
theorem escapesAt_tryCatch {p h : Prog ℓ σ α} (hh : h.EscapesAt P) : (p.tryCatch h).EscapesAt P := by
  induction p with
  | ret a => trivial
  | raise => exact hh
  | call l post next fault ihn ihf => exact ⟨ihn, .inr ihf⟩

end Prog

open Prog

/-- The exception that ends a run is that of its last call. -/
theorem Exec.raised_at {P : ℓ → Prop} {p : Prog ℓ σ α} {s s' : σ} {es : List (Event ℓ σ)} {o : Outcome α}
    (h : Exec p s es s' o) (hp : p.EscapesAt P) (ho : o = .raised) :
    ∃ before e, es = before ++ [e] ∧ e.fault = .raise ∧ P e.lbl := by
  induction h with
  | ret a s => cases ho
  | raise s => exact hp.elim
  | @ok l post next fault s es s' o _ ih =>
    obtain ⟨before, e, hes, hraise, hl⟩ := ih (hp.1 s) ho
    exact ⟨⟨l, s, post s, .none⟩ :: before, e, by rw [hes]; rfl, hraise, hl⟩
  | @fault l post next fault s es s' o hx ih =>
    rcases hp.2 with ⟨hfault, hl⟩ | hf
    · subst hfault
      cases hx
      exact ⟨[], _, rfl, rfl, hl⟩
    · obtain ⟨before, e, hes, hraise, hl⟩ := ih hf ho
      exact ⟨⟨l, s, s, .raise⟩ :: before, e, by rw [hes]; rfl, hraise, hl⟩
  | crash => cases ho

end Transact
