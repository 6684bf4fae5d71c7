import Mathlib.Data.Rat.Floor
import TalonX.Transact.Rotation
import TalonX.Transact.Text

/-!
# The rotation of the poll cycles

`_cycleSymbols` picks the symbols of a `pollOnce` call, and `pollOnce` asks for the submissions of each. A cycle never
polls a symbol twice (`nodup_visited`). The full cycles that follow each other cover the scope when every restricted
call between them picks at most a cycle's limit of symbols (`covers_of_quiet`), and for no other restrictions
(`rotation_fair_iff`): a larger restricted call moves the cursor of the full cycles.
-/

set_option autoImplicit false

namespace TalonX.Ingest

open Transact

structure ResolvedSymbol where
  symbol : String
  cik : String
  deriving DecidableEq, Repr

/-- The symbols of a scope come from a set. -/
structure IngestionScope where
  resolved : List ResolvedSymbol
  nodup : (resolved.map ResolvedSymbol.symbol).Nodup

/-- What became of a symbol in a cycle. -/
inductive Attempt where
  /-- `get_submissions` raised; the cycle goes on -/
  | failed (error : String)
  | polled
  /-- the ingestion of its filings raised, out of the cycle -/
  | raised
  deriving DecidableEq, Repr

/-- One `poll_once` call: its `symbols`, and how each symbol it asks for turns out. -/
structure PollOnce where
  symbols : List String
  attempt : ResolvedSymbol → Attempt

namespace PollOnce

/-- The set of upper-cased symbols; none without `symbols`. -/
def only (call : PollOnce) : Option (List String) :=
  if call.symbols = [] then none else some (call.symbols.map String.toUpper)

def IsFull (call : PollOnce) : Prop := call.symbols = []

instance (call : PollOnce) : Decidable call.IsFull := inferInstanceAs (Decidable (_ = _))

end PollOnce

/-- What a cycle did. -/
structure PollCycle where
  visited : List ResolvedSymbol
  symbolsPolled : ℕ
  symbolsFailed : ℕ
  errors : List String
  complete : Bool
  deriving DecidableEq, Repr

namespace PollCycle

def empty : PollCycle := ⟨[], 0, 0, [], true⟩

def hadSuccess (c : PollCycle) : Bool := 0 < c.symbolsPolled && c.symbolsFailed < c.symbolsPolled

end PollCycle

/-- The symbol loop of `poll_once`. -/
def pollSymbols (attempt : ResolvedSymbol → Attempt) : List ResolvedSymbol → PollCycle → PollCycle
  | [], result => result
  | rs :: rest, result =>
    let result := { result with visited := result.visited ++ [rs] }
    match attempt rs with
    | .failed error => pollSymbols attempt rest
        { result with
          symbolsFailed := result.symbolsFailed + 1
          errors := result.errors ++ [rs.symbol ++ ": " ++ error] }
    | .polled => pollSymbols attempt rest { result with symbolsPolled := result.symbolsPolled + 1 }
    | .raised => { result with symbolsPolled := result.symbolsPolled + 1, complete := false }

theorem visited_pollSymbols (attempt : ResolvedSymbol → Attempt) (l : List ResolvedSymbol) (result : PollCycle) :
    ∃ done, done <+: l ∧ (pollSymbols attempt l result).visited = result.visited ++ done ∧
      ((pollSymbols attempt l result).complete = true → done = l) := by
  induction l generalizing result with
  | nil => exact ⟨[], List.prefix_rfl, by simp [pollSymbols], fun _ => rfl⟩
  | cons rs rest ih =>
    unfold pollSymbols
    cases attempt rs with
    | failed error =>
      obtain ⟨done, hpre, hvis, hall⟩ := ih _
      exact ⟨rs :: done, by simpa using hpre, hvis.trans (by simp), fun h => by rw [hall h]⟩
    | polled =>
      obtain ⟨done, hpre, hvis, hall⟩ := ih _
      exact ⟨rs :: done, by simpa using hpre, hvis.trans (by simp), fun h => by rw [hall h]⟩
    | raised => exact ⟨[rs], by simp, rfl, fun h => by simp at h⟩

theorem complete_pollSymbols {attempt : ResolvedSymbol → Attempt} {l : List ResolvedSymbol}
    (hquiet : ∀ rs ∈ l, attempt rs ≠ .raised) (result : PollCycle) :
    (pollSymbols attempt l result).complete = result.complete := by
  induction l generalizing result with
  | nil => rfl
  | cons rs rest ih =>
    have hrest := fun r hr => hquiet r (List.mem_cons_of_mem _ hr)
    unfold pollSymbols
    cases h : attempt rs with
    | failed error => exact ih hrest _
    | polled => exact ih hrest _
    | raised => exact absurd h (hquiet rs List.mem_cons_self)

/-- A poller: its scope and `poll_max_symbols_per_cycle`. -/
structure EdgarPoller where
  scope : IngestionScope
  pollMaxSymbolsPerCycle : ℤ

namespace EdgarPoller

variable (p : EdgarPoller)

/-- The symbols of the scope that a call may pick from. -/
def eligible (only : Option (List String)) : List ResolvedSymbol :=
  p.scope.resolved.filter fun r => only.all (r.symbol ∈ ·)

/-- `_cycle_symbols`: the symbols of a cycle, and the cursor after it. -/
def cycleSymbols (cursor : ℕ) (only : Option (List String)) : List ResolvedSymbol × ℕ :=
  let resolved := p.eligible only
  let n := p.pollMaxSymbolsPerCycle
  if n ≤ 0 ∨ (resolved.length : ℤ) ≤ n then (resolved, cursor)
  else
    let start := cursor % resolved.length
    (((resolved ++ resolved).drop start).take n.toNat, (start + n.toNat) % resolved.length)

/-- `poll_once` from a cursor, and the cursor after it. -/
def pollOnce (cursor : ℕ) (call : PollOnce) : PollCycle × ℕ :=
  let (picked, cursor) := p.cycleSymbols cursor call.only
  (pollSymbols call.attempt picked .empty, cursor)

/-- The cycles of a sequence of calls. -/
def cycles : ℕ → List PollOnce → List (PollOnce × PollCycle)
  | _, [] => []
  | cursor, call :: calls =>
    let (cycle, cursor) := p.pollOnce cursor call
    (call, cycle) :: cycles cursor calls

/-- The cursor after a sequence of calls. -/
def cursorAfter (cursor : ℕ) (calls : List PollOnce) : ℕ :=
  calls.foldl (fun cursor call => (p.pollOnce cursor call).2) cursor

/-- What the rotation is for: in a run of a new poller no cycle polls a symbol twice, and as many consecutive full
cycles as it takes to go through the scope poll every symbol, whatever restricted calls stand between them. -/
def Fair (calls : List PollOnce) : Prop :=
  (∀ cycle ∈ p.cycles 0 calls, (cycle.2.visited.map ResolvedSymbol.symbol).Nodup) ∧
  ∀ before round after, calls = before ++ round ++ after →
    (∀ cycle ∈ p.cycles (p.cursorAfter 0 before) round, cycle.1.IsFull → cycle.2.complete = true) →
    ⌈(p.scope.resolved.length : ℚ) / p.pollMaxSymbolsPerCycle⌉ ≤ round.countP (fun call => call.IsFull) →
    ∀ r ∈ p.scope.resolved, ∃ cycle ∈ p.cycles (p.cursorAfter 0 before) round, cycle.1.IsFull ∧ r ∈ cycle.2.visited

/-! ## What a call picks -/

variable {p : EdgarPoller} {cursor : ℕ} {n : ℕ}

theorem eligible_full : p.eligible none = p.scope.resolved := by simp [eligible]

theorem nodup_eligible (only : Option (List String)) : (p.eligible only).Nodup :=
  (List.Nodup.of_map _ p.scope.nodup).filter _

theorem cycleSymbols_all {only : Option (List String)} (h : p.pollMaxSymbolsPerCycle = n)
    (hle : (p.eligible only).length ≤ n) : p.cycleSymbols cursor only = (p.eligible only, cursor) := by
  rw [cycleSymbols, if_pos (Or.inr (by rw [h]; exact_mod_cast hle))]

theorem cycleSymbols_some (cursor : ℕ) {only : Option (List String)} (h : p.pollMaxSymbolsPerCycle = n) (hn : 0 < n)
    (hlt : n < (p.eligible only).length) :
    p.cycleSymbols cursor only =
      (((p.eligible only).rotate cursor).take n, (cursor + n) % (p.eligible only).length) := by
  have hpos : 0 < (p.eligible only).length := by omega
  dsimp only [cycleSymbols]
  rw [if_neg (by rw [h]; omega), h, Int.toNat_natCast, Nat.mod_add_mod,
    take_drop_append_self (Nat.mod_lt _ hpos) hlt.le, List.rotate_mod]

theorem nodup_cycleSymbols (cursor : ℕ) (only : Option (List String)) : (p.cycleSymbols cursor only).1.Nodup := by
  dsimp only [cycleSymbols]
  split
  · exact nodup_eligible only
  · rename_i h
    rw [not_or, not_le, not_le] at h
    rw [take_drop_append_self (Nat.mod_lt _ (by omega)) (by omega)]
    exact nodup_take_rotate (nodup_eligible only) _ _

theorem mem_scope_of_mem_cycleSymbols {only : Option (List String)} {r : ResolvedSymbol}
    (h : r ∈ (p.cycleSymbols cursor only).1) : r ∈ p.scope.resolved := by
  have hmem : r ∈ p.eligible only := by
    dsimp only [cycleSymbols] at h
    split at h
    · exact h
    · simpa using List.mem_of_mem_drop (List.mem_of_mem_take h)
  exact List.mem_of_mem_filter hmem

/-- No cycle polls a symbol twice. -/
theorem nodup_visited (cursor : ℕ) (call : PollOnce) :
    ((p.pollOnce cursor call).1.visited.map ResolvedSymbol.symbol).Nodup := by
  obtain ⟨done, hpre, hvis, -⟩ := visited_pollSymbols call.attempt (p.cycleSymbols cursor call.only).1 .empty
  have hdone : done.Nodup := (nodup_cycleSymbols cursor call.only).sublist hpre.sublist
  have hvis : (p.pollOnce cursor call).1.visited = done := hvis
  rw [hvis]
  refine (List.nodup_map_iff_inj_on hdone).mpr fun r hr r' hr' he => ?_
  exact List.inj_on_of_nodup_map p.scope.nodup (mem_scope_of_mem_cycleSymbols (hpre.subset hr))
    (mem_scope_of_mem_cycleSymbols (hpre.subset hr')) he

theorem cycles_cons (call : PollOnce) (calls : List PollOnce) :
    p.cycles cursor (call :: calls) =
      (call, (p.pollOnce cursor call).1) :: p.cycles (p.pollOnce cursor call).2 calls := rfl

theorem mem_cycles {calls : List PollOnce} {cycle : PollOnce × PollCycle} (h : cycle ∈ p.cycles cursor calls) :
    ∃ cursor', cycle.2 = (p.pollOnce cursor' cycle.1).1 := by
  induction calls generalizing cursor with
  | nil => simp [cycles] at h
  | cons call calls ih =>
    rcases List.mem_cons.mp h with rfl | h
    · exact ⟨cursor, rfl⟩
    · exact ih h

/-! ## A round of full cycles -/

theorem visited_of_complete {call : PollOnce} (h : (p.pollOnce cursor call).1.complete = true) :
    (p.pollOnce cursor call).1.visited = (p.cycleSymbols cursor call.only).1 := by
  obtain ⟨done, -, hvis, hall⟩ := visited_pollSymbols call.attempt (p.cycleSymbols cursor call.only).1 .empty
  rw [← hall h]
  exact hvis

theorem only_full {call : PollOnce} (h : call.IsFull) : call.only = none := if_pos h

/-- Among restricted calls that leave the cursor where it is, the full cycles are windows that follow each other. -/
theorem exists_turn {calls : List PollOnce} (h : p.pollMaxSymbolsPerCycle = n) (hn : 0 < n)
    (hlt : n < p.scope.resolved.length)
    (hquiet : ∀ call ∈ calls, ¬call.IsFull → (p.eligible call.only).length ≤ n)
    (hcomplete : ∀ cycle ∈ p.cycles cursor calls, cycle.1.IsFull → cycle.2.complete = true) {j : ℕ}
    (hj : j < calls.countP fun call => call.IsFull) :
    ∃ cycle ∈ p.cycles cursor calls, cycle.1.IsFull ∧
      cycle.2.visited = (p.scope.resolved.rotate (cursor + j * n)).take n := by
  induction calls generalizing cursor j with
  | nil => simp at hj
  | cons call calls ih =>
    rw [cycles_cons] at hcomplete ⊢
    have hrest := fun c hc => hquiet c (List.mem_cons_of_mem _ hc)
    have hdone := fun c hc => hcomplete c (List.mem_cons_of_mem _ hc)
    by_cases hfull : call.IsFull
    · have hpick := cycleSymbols_some cursor h hn (show n < (p.eligible none).length by rwa [eligible_full])
      rw [eligible_full] at hpick
      cases j with
      | zero =>
        refine ⟨(call, (p.pollOnce cursor call).1), List.mem_cons_self, hfull, ?_⟩
        rw [visited_of_complete (hcomplete _ List.mem_cons_self hfull), only_full hfull, hpick]
        simp
      | succ j =>
        rw [List.countP_cons_of_pos (by simpa using hfull)] at hj
        obtain ⟨cycle, hmem, hcf, hvis⟩ := ih hrest hdone (j := j) (by omega)
        refine ⟨cycle, List.mem_cons_of_mem _ hmem, hcf, hvis.trans ?_⟩
        have hcursor : (p.pollOnce cursor call).2 = (cursor + n) % p.scope.resolved.length := by
          rw [pollOnce, only_full hfull, hpick]
        rw [hcursor]
        congr 1
        refine rotate_congr ?_
        rw [Nat.mod_add_mod]
        congr 1
        ring
    · rw [List.countP_cons_of_neg (by simpa using hfull)] at hj
      obtain ⟨cycle, hmem, hcf, hvis⟩ := ih hrest hdone hj
      refine ⟨cycle, List.mem_cons_of_mem _ hmem, hcf, ?_⟩
      have hcursor : (p.pollOnce cursor call).2 = cursor := by
        rw [pollOnce, cycleSymbols_all h (hquiet _ List.mem_cons_self hfull)]
      rwa [hcursor] at hvis

/-! ## Fairness -/

theorem fair_of_quiet {calls : List PollOnce} (h : p.pollMaxSymbolsPerCycle = n) (hn : 0 < n)
    (hlt : n < p.scope.resolved.length)
    (hquiet : ∀ call ∈ calls, ¬call.IsFull → (p.eligible call.only).length ≤ n) : p.Fair calls := by
  refine ⟨fun cycle hcycle => ?_, fun before round after hcalls hcomplete hcount r hr => ?_⟩
  · obtain ⟨cursor, hcursor⟩ := mem_cycles hcycle
    rw [hcursor]
    exact nodup_visited cursor cycle.1
  · have hk : p.scope.resolved.length ≤ round.countP (fun call => call.IsFull) * n := by
      rw [h, Int.ceil_le, Int.cast_natCast, div_le_iff₀ (by exact_mod_cast hn)] at hcount
      exact_mod_cast hcount
    obtain ⟨j, hj, hmem⟩ := exists_turn_mem hk (p.cursorAfter 0 before) hr
    have hround : ∀ call ∈ round, ¬call.IsFull → (p.eligible call.only).length ≤ n := fun call hc =>
      hquiet call (by rw [hcalls]; simp [hc])
    obtain ⟨cycle, hcycle, hfull, hvis⟩ := exists_turn h hn hlt hround hcomplete hj
    exact ⟨cycle, hcycle, hfull, hvis ▸ hmem⟩

/-- A full cycle whose symbols all turn out well. -/
def fullCycle : PollOnce := ⟨[], fun _ => .polled⟩

theorem only_fullCycle : fullCycle.only = none := rfl

def restrictedTo (symbols : List String) : PollOnce := ⟨symbols, fun _ => .polled⟩

/-- A full cycle from the start of the scope, and the restricted calls that bring the cursor back there. -/
def relapse (p : EdgarPoller) (symbols : List String) : List PollOnce :=
  fullCycle :: List.replicate ((p.eligible (restrictedTo symbols).only).length - 1) (restrictedTo symbols)

theorem complete_polled (cursor : ℕ) (symbols : List String) :
    (p.pollOnce cursor (restrictedTo symbols)).1.complete = true :=
  complete_pollSymbols (fun _ _ h => Attempt.noConfusion h) .empty

theorem cycles_append (cursor : ℕ) (calls calls' : List PollOnce) :
    p.cycles cursor (calls ++ calls') = p.cycles cursor calls ++ p.cycles (p.cursorAfter cursor calls) calls' := by
  induction calls generalizing cursor with
  | nil => rfl
  | cons call calls ih =>
    rw [List.cons_append, cycles_cons, cycles_cons, ih, List.cons_append]
    rfl

theorem isFull_of_mem_cycles {calls : List PollOnce} (h : ∀ call ∈ calls, ¬call.IsFull)
    {cycle : PollOnce × PollCycle} (hc : cycle ∈ p.cycles cursor calls) : ¬cycle.1.IsFull := by
  induction calls generalizing cursor with
  | nil => simp [cycles] at hc
  | cons call calls ih =>
    rcases List.mem_cons.mp hc with rfl | hc
    · exact h call List.mem_cons_self
    · exact ih (fun c hm => h c (List.mem_cons_of_mem _ hm)) hc

theorem countP_relapse {symbols : List String} (hs : symbols ≠ []) (k : ℕ) :
    (List.replicate k (p.relapse symbols)).flatten.countP (fun call => call.IsFull) = k := by
  induction k with
  | zero => simp
  | succ k ih =>
    have hone : (p.relapse symbols).countP (fun call => call.IsFull) = 1 := by
      rw [relapse, List.countP_cons_of_pos (by decide), List.countP_replicate,
        if_neg (by rw [decide_eq_true_eq]; exact hs)]
    rw [List.replicate_succ, List.flatten_cons, List.countP_append, ih, hone, Nat.add_comm]

theorem lt_scope {only : Option (List String)} (hlt : n < (p.eligible only).length) : n < p.scope.resolved.length :=
  hlt.trans_le (List.length_filter_le _ _)

section Relapse

variable {symbols : List String} (h : p.pollMaxSymbolsPerCycle = n) (hn : 0 < n)
  (hlt : n < (p.eligible (restrictedTo symbols).only).length)

include h hn hlt

theorem cursorAfter_replicate (k : ℕ) :
    p.cursorAfter cursor (List.replicate (k + 1) (restrictedTo symbols)) =
      (cursor + (k + 1) * n) % (p.eligible (restrictedTo symbols).only).length := by
  have hstep : ∀ cursor k, p.cursorAfter cursor (List.replicate (k + 1) (restrictedTo symbols)) =
      p.cursorAfter ((cursor + n) % (p.eligible (restrictedTo symbols).only).length)
        (List.replicate k (restrictedTo symbols)) := by
    intro cursor k
    rw [List.replicate_succ, cursorAfter, List.foldl_cons, pollOnce, cycleSymbols_some _ h hn hlt]
    rfl
  induction k generalizing cursor with
  | zero =>
    rw [hstep]
    simp [cursorAfter]
  | succ k ih =>
    rw [hstep, ih, Nat.mod_add_mod]
    congr 1
    ring

theorem pollOnce_fullCycle : p.pollOnce 0 fullCycle =
    (pollSymbols fullCycle.attempt (p.scope.resolved.take n) .empty, n) := by
  have hscope := lt_scope hlt
  rw [pollOnce, only_fullCycle, cycleSymbols_some _ h hn (by rwa [eligible_full]), eligible_full, List.rotate_zero,
    Nat.zero_add, Nat.mod_eq_of_lt hscope]

/-- The restricted calls bring the cursor back to the start. -/
theorem cursorAfter_relapse : p.cursorAfter 0 (p.relapse symbols) = 0 := by
  obtain ⟨k, hk⟩ : ∃ k, (p.eligible (restrictedTo symbols).only).length = k + 2 :=
    ⟨_, (Nat.sub_add_cancel (by omega)).symm⟩
  rw [relapse, cursorAfter, List.foldl_cons, pollOnce_fullCycle h hn hlt, hk]
  refine (cursorAfter_replicate h hn hlt k).trans ?_
  rw [hk, show n + (k + 1) * n = (k + 2) * n by ring, Nat.mul_mod_right]

/-- Relapsing, the full cycles poll the start of the scope again and again. -/
theorem visited_relapse (hs : symbols ≠ []) {k : ℕ} {cycle : PollOnce × PollCycle}
    (hc : cycle ∈ p.cycles 0 (List.replicate k (p.relapse symbols)).flatten) (hfull : cycle.1.IsFull) :
    cycle.2.complete = true ∧ cycle.2.visited = p.scope.resolved.take n := by
  induction k with
  | zero => simp [cycles] at hc
  | succ k ih =>
    rw [List.replicate_succ, List.flatten_cons, cycles_append, cursorAfter_relapse h hn hlt] at hc
    rcases List.mem_append.mp hc with hc | hc
    · rw [relapse, cycles_cons] at hc
      rcases List.mem_cons.mp hc with rfl | hc
      · have hall : (p.pollOnce 0 fullCycle).1.complete = true := by
          rw [pollOnce_fullCycle h hn hlt]
          exact complete_pollSymbols (fun _ _ he => Attempt.noConfusion he) .empty
        refine ⟨hall, (visited_of_complete hall).trans ?_⟩
        rw [only_fullCycle, cycleSymbols_some _ h hn (by rw [eligible_full]; exact lt_scope hlt), eligible_full,
          List.rotate_zero]
      · refine absurd hfull (isFull_of_mem_cycles (fun call hm => ?_) hc)
        rw [List.eq_of_mem_replicate hm]
        exact hs
    · exact ih hc

theorem not_fair_relapse (hs : symbols ≠ []) :
    ¬p.Fair (List.replicate p.scope.resolved.length (p.relapse symbols)).flatten := by
  rintro ⟨-, hround⟩
  have hscope := lt_scope hlt
  have hcount : ⌈(p.scope.resolved.length : ℚ) / p.pollMaxSymbolsPerCycle⌉ ≤
      (List.replicate p.scope.resolved.length (p.relapse symbols)).flatten.countP (fun call => call.IsFull) := by
    rw [countP_relapse hs, h, Int.ceil_le, Int.cast_natCast, Int.cast_natCast]
    exact div_le_self (by positivity) (by exact_mod_cast hn)
  obtain ⟨cycle, hc, hfull, hmem⟩ := hround [] _ [] (by rw [List.nil_append, List.append_nil])
    (fun cycle hc hfull => (visited_relapse h hn hlt hs hc hfull).1) hcount p.scope.resolved[n] (List.getElem_mem hscope)
  rw [(visited_relapse h hn hlt hs hc hfull).2, List.mem_take_iff_getElem] at hmem
  obtain ⟨i, hi, he⟩ := hmem
  have := (List.Nodup.of_map _ p.scope.nodup).getElem_inj_iff.mp he
  omega

end Relapse

/-- For which restrictions the rotation is fair: those that pick at most a cycle's limit of symbols. -/
theorem rotation_fair_iff (hpos : 0 < p.pollMaxSymbolsPerCycle)
    (hlt : p.pollMaxSymbolsPerCycle < p.scope.resolved.length) (restrictions : Set (List String)) :
    (∀ calls : List PollOnce, (∀ call ∈ calls, call.IsFull ∨ call.symbols ∈ restrictions) → p.Fair calls) ↔
      ∀ symbols ∈ restrictions, symbols ≠ [] →
        ((p.eligible (some (symbols.map String.toUpper))).length : ℤ) ≤ p.pollMaxSymbolsPerCycle := by
  obtain ⟨n, h⟩ := Int.eq_ofNat_of_zero_le hpos.le
  rw [h] at hpos hlt ⊢
  rw [Nat.cast_pos] at hpos
  rw [Nat.cast_lt] at hlt
  constructor
  · intro hfair symbols hsym hs
    by_contra hgt
    rw [not_le, Nat.cast_lt] at hgt
    have honly : (restrictedTo symbols).only = some (symbols.map String.toUpper) := if_neg hs
    refine not_fair_relapse h hpos (by rwa [honly]) hs (hfair _ fun call hc => ?_)
    obtain ⟨block, hblock, hc⟩ := List.mem_flatten.mp hc
    rw [List.eq_of_mem_replicate hblock] at hc
    rcases List.mem_cons.mp hc with rfl | hc
    · exact Or.inl rfl
    · exact Or.inr (by rw [List.eq_of_mem_replicate hc]; exact hsym)
  · intro hsmall calls hcalls
    refine fair_of_quiet h hpos hlt fun call hc hrest => ?_
    have honly : call.only = some (call.symbols.map String.toUpper) := if_neg hrest
    rw [honly]
    exact_mod_cast hsmall _ ((hcalls call hc).resolve_left hrest) hrest

/-- Four symbols, two a cycle. -/
def pairPoller : EdgarPoller where
  scope := ⟨[⟨"AAPL", "320193"⟩, ⟨"KO", "21344"⟩, ⟨"MSFT", "789019"⟩, ⟨"PEP", "77476"⟩], by decide⟩
  pollMaxSymbolsPerCycle := 2

/-- A restricted call for two symbols leaves the rotation alone. -/
theorem rotation_fair_sample : pairPoller.Fair [fullCycle, restrictedTo ["KO", "pep"], fullCycle] :=
  (rotation_fair_iff (p := pairPoller) (by decide) (by decide) {["KO", "pep"]}).mpr
    (by rintro symbols rfl -; decide +kernel) _ (by simp [fullCycle, restrictedTo, PollOnce.IsFull])

/-- A restricted call for three symbols moves the cursor past `PEP`: two full cycles, half the scope each, miss it. -/
theorem restricted_call_moves_cursor :
    ¬pairPoller.Fair [fullCycle, restrictedTo ["AAPL", "KO", "MSFT"], fullCycle] := by
  rintro ⟨-, hround⟩
  have hmissed := hround [] [fullCycle, restrictedTo ["AAPL", "KO", "MSFT"], fullCycle] [] rfl
    (by decide +kernel) (by decide +kernel) ⟨"PEP", "77476"⟩ (by decide)
  revert hmissed
  decide +kernel

end EdgarPoller

end TalonX.Ingest
