import Mathlib.Data.List.Forall2
import TalonX.Transact.Interleave

/-!
# One program among others

The history of a store, seen from one program: its own calls and the commits of others, in the order in which they
happened. `Trace p es o` says what the program did, from whatever stores its calls found; `Chained s items s'` says that
the stores follow each other. `Amid` is both.

- `trace_bind`, `trace_read`, `trace_write`, `trace_ofOption`: what a trace of a construct is made of;
- `Chained.kept`: a relation that every commit keeps relates the commits in the order of the history;
- `exists_break`: where a property of the store ceases to hold, some commit breaks it;
- `Amid.alone`: the run of a program that is by itself.
-/

set_option autoImplicit false

namespace Transact

open Prog

variable {ℓ σ α β : Type}

theorem bind_assoc {γ : Type} (p : Prog ℓ σ α) (k : α → Prog ℓ σ β) (k' : β → Prog ℓ σ γ) :
    (p.bind k).bind k' = p.bind fun a => (k a).bind k' := by
  induction p with
  | ret a => rfl
  | raise => rfl
  | call l post next fault ihn ihf => exact congrArg₂ _ (funext ihn) ihf

/-! ## What a program does -/

/-- The calls of a program, each from the store that it found. -/
inductive Trace : Prog ℓ σ α → List (Event ℓ σ) → Outcome α → Prop
  | ret (a : α) : Trace (.ret a) [] (.done a)
  | raise : Trace .raise [] .raised
  | ok {l post next fault s es o} : Trace (next s) es o →
      Trace (.call l post next fault) (⟨l, s, post s, .none⟩ :: es) o
  | fault {l post next fault s es o} : Trace fault es o →
      Trace (.call l post next fault) (⟨l, s, s, .raise⟩ :: es) o
  | crash {l post next fault s} : Trace (.call l post next fault) [⟨l, s, s, .crash⟩] .crashed

theorem Exec.trace {p : Prog ℓ σ α} {s s' : σ} {es : List (Event ℓ σ)} {o : Outcome α} (h : Exec p s es s' o) :
    Trace p es o := by
  induction h with
  | ret a _ => exact .ret a
  | raise _ => exact .raise
  | ok _ ih => exact .ok ih
  | fault _ ih => exact .fault ih
  | crash => exact .crash

/-- A trace of `p` and then `k`: `p` returned and `k` went on, or `p` failed. -/
theorem trace_bind {p : Prog ℓ σ α} {k : α → Prog ℓ σ β} {es : List (Event ℓ σ)} {o : Outcome β}
    (h : Trace (p.bind k) es o) :
    (∃ a es₁ es₂, es = es₁ ++ es₂ ∧ Trace p es₁ (.done a) ∧ Trace (k a) es₂ o) ∨
      Trace p es .raised ∧ o = .raised ∨ Trace p es .crashed ∧ o = .crashed := by
  induction p generalizing es with
  | ret a => exact .inl ⟨a, [], es, rfl, .ret a, h⟩
  | raise =>
    cases h
    exact .inr (.inl ⟨.raise, rfl⟩)
  | call l post next fault ihn ihf =>
    cases h with
    | ok h =>
      rcases ihn _ h with ⟨a, es₁, es₂, rfl, h1, h2⟩ | ⟨h1, ho⟩ | ⟨h1, ho⟩
      · exact .inl ⟨a, _ :: es₁, es₂, rfl, .ok h1, h2⟩
      · exact .inr (.inl ⟨.ok h1, ho⟩)
      · exact .inr (.inr ⟨.ok h1, ho⟩)
    | fault h =>
      rcases ihf h with ⟨a, es₁, es₂, rfl, h1, h2⟩ | ⟨h1, ho⟩ | ⟨h1, ho⟩
      · exact .inl ⟨a, _ :: es₁, es₂, rfl, .fault h1, h2⟩
      · exact .inr (.inl ⟨.fault h1, ho⟩)
      · exact .inr (.inr ⟨.fault h1, ho⟩)
    | crash => exact .inr (.inr ⟨.crash, rfl⟩)

/-- A call that did not commit. -/
def Event.Failed (e : Event ℓ σ) : Prop := e.fault ≠ .none ∧ e.post = e.pre

theorem trace_call {l : ℓ} {post : σ → σ} {g : σ → α} {es : List (Event ℓ σ)} {o : Outcome α}
    (h : Trace (.call l post (fun s => .ret (g s)) .raise) es o) :
    (∃ s, es = [⟨l, s, post s, .none⟩] ∧ o = .done (g s)) ∨
      ∃ e, es = [e] ∧ e.lbl = l ∧ e.Failed ∧ ∀ a, o ≠ .done a := by
  cases h with
  | ok h =>
    cases h
    exact .inl ⟨_, rfl, rfl⟩
  | fault h =>
    cases h
    exact .inr ⟨_, rfl, rfl, ⟨nofun, rfl⟩, nofun⟩
  | crash => exact .inr ⟨_, rfl, rfl, ⟨nofun, rfl⟩, nofun⟩

theorem trace_read {l : ℓ} {g : σ → α} {es : List (Event ℓ σ)} {o : Outcome α} (h : Trace (Prog.read l g) es o) :
    (∃ s, es = [⟨l, s, s, .none⟩] ∧ o = .done (g s)) ∨ ∃ e, es = [e] ∧ e.lbl = l ∧ e.Failed ∧ ∀ a, o ≠ .done a :=
  trace_call h

theorem trace_write {l : ℓ} {g : σ → σ} {es : List (Event ℓ σ)} {o : Outcome Unit} (h : Trace (Prog.write l g) es o) :
    (∃ s, es = [⟨l, s, g s, .none⟩] ∧ o = .done ()) ∨ ∃ e, es = [e] ∧ e.lbl = l ∧ e.Failed ∧ ∀ a, o ≠ .done a :=
  trace_call h

theorem trace_ofOption {v : Option α} {es : List (Event ℓ σ)} {o : Outcome α}
    (h : Trace (Prog.ofOption v : Prog ℓ σ α) es o) :
    es = [] ∧ (∀ a, v = some a → o = .done a) ∧ (v = none → o = .raised) := by
  cases v with
  | none =>
    cases h
    exact ⟨rfl, nofun, fun _ => rfl⟩
  | some a =>
    cases h
    exact ⟨rfl, fun b hb => by rw [Option.some.inj hb], nofun⟩

/-- The committed calls of a program all of whose calls are of a kind. -/
theorem Trace.committed {G : ℓ → σ → σ → Prop} {p : Prog ℓ σ α} {es : List (Event ℓ σ)} {o : Outcome α}
    (h : Trace p es o) (hp : Keeps (fun _ => True) G p) : ∀ e ∈ es, e.fault = .none → G e.lbl e.pre e.post := by
  induction h with
  | ret a => simp
  | raise => simp
  | @ok l post next fault s es o _ ih =>
    obtain ⟨-, hG, -, hnext⟩ := hp.1 s trivial trivial
    exact List.forall_mem_cons.2 ⟨fun _ => hG, ih hnext⟩
  | fault _ ih => exact List.forall_mem_cons.2 ⟨nofun, ih hp.2.1⟩
  | crash =>
    intro e he
    rw [List.mem_singleton.1 he]
    exact nofun

/-! ## Histories -/

/-- One commit of a history: a call of the program itself, or somebody else's. -/
inductive Item (ℓ σ : Type) where
  | own (e : Event ℓ σ)
  | other (pre post : σ)

namespace Item

def pre : Item ℓ σ → σ
  | own e => e.pre
  | other s _ => s

def post : Item ℓ σ → σ
  | own e => e.post
  | other _ s => s

def own? : Item ℓ σ → Option (Event ℓ σ)
  | own e => some e
  | other _ _ => none

end Item

/-- The calls of the program itself. -/
def ownEvents (items : List (Item ℓ σ)) : List (Event ℓ σ) := items.filterMap Item.own?

theorem mem_ownEvents {items : List (Item ℓ σ)} {e : Event ℓ σ} : e ∈ ownEvents items ↔ Item.own e ∈ items := by
  rw [ownEvents, List.mem_filterMap]
  constructor
  · rintro ⟨i, hi, he⟩
    cases i with
    | own e' =>
      obtain rfl := Option.some.inj he
      exact hi
    | other _ _ => cases he
  · exact fun h => ⟨_, h, rfl⟩

/-- The items lead from `s` to `s'`. -/
def Chained : σ → List (Item ℓ σ) → σ → Prop
  | s, [], s' => s = s'
  | s, i :: items, s' => i.pre = s ∧ Chained i.post items s'

theorem chained_append {s s' t : σ} {items items' : List (Item ℓ σ)} (h : Chained s items t)
    (h' : Chained t items' s') : Chained s (items ++ items') s' := by
  induction items generalizing s with
  | nil =>
    obtain rfl : s = t := h
    exact h'
  | cons i items ih => exact ⟨h.1, ih h.2⟩

theorem chained_of_append {s s' : σ} {items items' : List (Item ℓ σ)} (h : Chained s (items ++ items') s') :
    ∃ t, Chained s items t ∧ Chained t items' s' := by
  induction items generalizing s with
  | nil => exact ⟨s, rfl, h⟩
  | cons i items ih =>
    obtain ⟨t, h1, h2⟩ := ih h.2
    exact ⟨t, ⟨h.1, h1⟩, h2⟩

/-- A relation that every commit keeps relates the start of the history to its end, and the end of each commit to the
start of every later one. -/
theorem Chained.kept {r : σ → σ → Prop} (hrefl : ∀ s, r s s) (htrans : ∀ {s t u}, r s t → r t u → r s u) {s s' : σ}
    {items : List (Item ℓ σ)} (h : Chained s items s') (hr : ∀ i ∈ items, r i.pre i.post) :
    r s s' ∧ (∀ i ∈ items, r s i.pre ∧ r i.post s') ∧ items.Pairwise fun i j => r i.post j.pre := by
  induction items generalizing s with
  | nil =>
    obtain rfl : s = s' := h
    exact ⟨hrefl s, by simp, .nil⟩
  | cons i items ih =>
    obtain ⟨hpre, hrest⟩ := h
    obtain ⟨hend, hall, hpair⟩ := ih hrest fun j hj => hr j (List.mem_cons_of_mem _ hj)
    have hi : r s i.post := hpre ▸ hr i List.mem_cons_self
    refine ⟨htrans hi hend, fun j hj => ?_, List.pairwise_cons.2 ⟨fun j hj => (hall j hj).1, hpair⟩⟩
    rcases List.mem_cons.1 hj with rfl | hj
    · exact ⟨hpre ▸ hrefl _, hend⟩
    · exact ⟨htrans hi (hall j hj).1, (hall j hj).2⟩

theorem exists_right_of_forall₂ {γ δ : Type} {R : γ → δ → Prop} {l : List γ} {l' : List δ} (h : List.Forall₂ R l l')
    {a : γ} (ha : a ∈ l) : ∃ b ∈ l', R a b := by
  induction h with
  | nil => cases ha
  | cons hab _ ih =>
    rcases List.mem_cons.1 ha with rfl | ha
    · exact ⟨_, List.mem_cons_self, hab⟩
    · obtain ⟨b, hb, hr⟩ := ih ha
      exact ⟨b, List.mem_cons_of_mem _ hb, hr⟩

theorem exists_left_of_forall₂ {γ δ : Type} {R : γ → δ → Prop} {l : List γ} {l' : List δ} (h : List.Forall₂ R l l')
    {b : δ} (hb : b ∈ l') : ∃ a ∈ l, R a b := exists_right_of_forall₂ h.flip hb

/-- Of two different commits one is the earlier. -/
theorem related_of_pairwise {γ : Type} {R : γ → γ → Prop} {l : List γ} (h : l.Pairwise R) {a b : γ} (ha : a ∈ l)
    (hb : b ∈ l) (hne : a ≠ b) : R a b ∨ R b a := by
  induction h with
  | nil => cases ha
  | cons hhead _ ih =>
    rcases List.mem_cons.1 ha with rfl | ha' <;> rcases List.mem_cons.1 hb with rfl | hb'
    · exact absurd rfl hne
    · exact .inl (hhead _ hb')
    · exact .inr (hhead _ ha')
    · exact ih ha' hb'

/-- A property that holds at the start and no longer at a later commit is broken by a commit between them. -/
theorem exists_break {P : σ → Prop} {s s' : σ} {items : List (Item ℓ σ)} (h : Chained s items s') (hs : P s)
    (hs' : ¬P s') : ∃ i ∈ items, P i.pre ∧ ¬P i.post := by
  induction items generalizing s with
  | nil =>
    obtain rfl : s = s' := h
    exact absurd hs hs'
  | cons i items ih =>
    obtain ⟨hpre, hrest⟩ := h
    by_cases hi : P i.post
    · obtain ⟨j, hj, hb⟩ := ih hrest hi
      exact ⟨j, List.mem_cons_of_mem _ hj, hb⟩
    · exact ⟨i, List.mem_cons_self, hpre ▸ hs, hi⟩

/-- The program `p` runs from `s` to `s'` amid the commits of others. -/
structure Amid (p : Prog ℓ σ α) (s : σ) (items : List (Item ℓ σ)) (s' : σ) (o : Outcome α) : Prop where
  trace : Trace p (ownEvents items) o
  chain : Chained s items s'

/-- The program's first call, and what comes before it. -/
theorem split_own {items : List (Item ℓ σ)} {e : Event ℓ σ} {es : List (Event ℓ σ)} (h : ownEvents items = e :: es) :
    ∃ before after, items = before ++ .own e :: after ∧ ownEvents before = [] ∧ ownEvents after = es := by
  induction items with
  | nil => cases h
  | cons i items ih =>
    cases i with
    | own e' =>
      obtain ⟨rfl, rfl⟩ := List.cons.inj h
      exact ⟨[], items, rfl, rfl, rfl⟩
    | other s t =>
      obtain ⟨before, after, rfl, hb, ha⟩ := ih h
      exact ⟨.other s t :: before, after, rfl, hb, ha⟩

theorem ownEvents_map_own (es : List (Event ℓ σ)) : ownEvents (es.map Item.own) = es := by
  rw [ownEvents, List.filterMap_map]
  exact List.filterMap_some

/-- By itself, a program runs amid nothing. -/
theorem Amid.alone {p : Prog ℓ σ α} {s s' : σ} {es : List (Event ℓ σ)} {o : Outcome α} (h : Exec p s es s' o) :
    Amid p s (es.map Item.own) s' o := by
  refine ⟨by rw [ownEvents_map_own]; exact h.trace, ?_⟩
  induction h with
  | ret a s => rfl
  | raise s => rfl
  | ok _ ih => exact ⟨rfl, ih⟩
  | fault _ ih => exact ⟨rfl, ih⟩
  | crash => exact ⟨rfl, rfl⟩

/-! ## Computed histories -/

/-- What happens next in a history. -/
inductive Turn (ℓ σ : Type) where
  | commit
  | raise
  /-- another process runs a program from its start to its end -/
  | beside (q : Prog ℓ σ Unit)

def others (es : List (Event ℓ σ)) : List (Item ℓ σ) := es.map fun e => .other e.pre e.post

/-- The history of a program under a schedule; past its end the program stops. -/
def weave : Prog ℓ σ α → List (Turn ℓ σ) → σ → List (Item ℓ σ) × σ × Outcome α
  | p, .beside q :: ts, s =>
    let r := exec q [] s
    let w := weave p ts r.2.1
    (others r.1 ++ w.1, w.2)
  | .ret a, _, s => ([], s, .done a)
  | .raise, _, s => ([], s, .raised)
  | .call l _ _ _, [], s => ([.own ⟨l, s, s, .crash⟩], s, .crashed)
  | .call l post next _, .commit :: ts, s =>
    let w := weave (next s) ts (post s)
    (.own ⟨l, s, post s, .none⟩ :: w.1, w.2)
  | .call l _ _ fault, .raise :: ts, s =>
    let w := weave fault ts s
    (.own ⟨l, s, s, .raise⟩ :: w.1, w.2)

theorem chained_others {p : Prog ℓ σ β} {s s' : σ} {es : List (Event ℓ σ)} {o : Outcome β} (h : Exec p s es s' o) :
    Chained s (others es) s' := by
  induction h with
  | ret a s => rfl
  | raise s => rfl
  | ok _ ih => exact ⟨rfl, ih⟩
  | fault _ ih => exact ⟨rfl, ih⟩
  | crash => exact ⟨rfl, rfl⟩

theorem ownEvents_append (items items' : List (Item ℓ σ)) :
    ownEvents (items ++ items') = ownEvents items ++ ownEvents items' := List.filterMap_append

theorem ownEvents_others (es : List (Event ℓ σ)) : ownEvents (others es) = [] := by
  rw [ownEvents, others, List.filterMap_map]
  exact List.filterMap_eq_nil_iff.2 fun _ _ => rfl

theorem weave_beside (p : Prog ℓ σ α) (q : Prog ℓ σ Unit) (ts : List (Turn ℓ σ)) (s : σ) :
    weave p (.beside q :: ts) s =
      (others (exec q [] s).1 ++ (weave p ts (exec q [] s).2.1).1, (weave p ts (exec q [] s).2.1).2) := by
  cases p <;> rfl

theorem weave_sound (p : Prog ℓ σ α) (ts : List (Turn ℓ σ)) (s : σ) :
    Amid p s (weave p ts s).1 (weave p ts s).2.1 (weave p ts s).2.2 := by
  induction ts generalizing p s with
  | nil =>
    cases p with
    | ret a => exact ⟨.ret a, rfl⟩
    | raise => exact ⟨.raise, rfl⟩
    | call l post next fault => exact ⟨.crash, rfl, rfl⟩
  | cons t ts ih =>
    cases t with
    | beside q =>
      have hrest := ih p (exec q [] s).2.1
      rw [weave_beside]
      refine ⟨?_, chained_append (chained_others (exec_sound q [] s)) hrest.chain⟩
      rw [ownEvents_append, ownEvents_others]
      exact hrest.trace
    | commit =>
      cases p with
      | ret a => exact ⟨.ret a, rfl⟩
      | raise => exact ⟨.raise, rfl⟩
      | call l post next fault =>
        have hrest := ih (next s) (post s)
        exact ⟨.ok hrest.trace, rfl, hrest.chain⟩
    | raise =>
      cases p with
      | ret a => exact ⟨.ret a, rfl⟩
      | raise => exact ⟨.raise, rfl⟩
      | call l post next fault =>
        have hrest := ih fault s
        exact ⟨.fault hrest.trace, rfl, hrest.chain⟩

/-- The commits of others in a computed history are commits of the programs that were run beside. -/
theorem exists_beside {p : Prog ℓ σ α} {ts : List (Turn ℓ σ)} {s t t' : σ} (h : Item.other t t' ∈ (weave p ts s).1) :
    ∃ q u, Turn.beside q ∈ ts ∧ Item.other t t' ∈ others (exec q [] u).1 := by
  induction ts generalizing p s with
  | nil => cases p <;> simp [weave] at h
  | cons turn ts ih =>
    have hlater : ∀ {p : Prog ℓ σ α} {s : σ}, Item.other t t' ∈ (weave p ts s).1 →
        ∃ q u, Turn.beside q ∈ turn :: ts ∧ Item.other t t' ∈ others (exec q [] u).1 := by
      intro p s h
      obtain ⟨q, u, hq, hmem⟩ := ih h
      exact ⟨q, u, List.mem_cons_of_mem _ hq, hmem⟩
    cases turn with
    | beside q =>
      rw [weave_beside] at h
      rcases List.mem_append.1 h with h | h
      · exact ⟨q, s, List.mem_cons_self, h⟩
      · exact hlater h
    | commit =>
      cases p with
      | ret a => simp [weave] at h
      | raise => simp [weave] at h
      | call l post next fault =>
        rcases List.mem_cons.1 h with h | h
        · cases h
        · exact hlater h
    | raise =>
      cases p with
      | ret a => simp [weave] at h
      | raise => simp [weave] at h
      | call l post next fault =>
        rcases List.mem_cons.1 h with h | h
        · cases h
        · exact hlater h

end Transact
