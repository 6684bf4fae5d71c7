import TalonX.Paper.Instances

/-!
# Lost updates between instances

A method reads the cash and the gate before it holds the write lock, and writes an absolute balance afterwards. What the
whole trades of every run are worth is in the cash of the file as long as a first write finds what its method has read.

- `Lane.drift`: the cash less the effects of the recorded trades; `Settles`: whole trades only, and no purchase past the gate;
- `Stmt.enabled`: the locking of the file; `Stmt.upToDate`: what the methods rely on;
- `no_lost_update`: every interleaving of instances whose steps meet both; `lost_update`: one that meets the first only.
-/

set_option autoImplicit false

namespace TalonX.Paper

open Transact Ops V2

/-! ## Cash and trades -/

def Side.signed : Side → ℚ → ℚ
  | .buy, amount => -amount
  | .sell, amount => amount

/-- What a trade does to the cash of its lane. -/
def TradeRow.effect (t : TradeRow) : ℚ :=
  match t.orderType with
  | .sell => t.shares * t.executionPrice
  | _ => -t.positionCost

def LongTermTradeRow.effect (t : LongTermTradeRow) : ℚ :=
  match t.orderType with
  | .sell => t.contributionCost
  | _ => -t.contributionCost

namespace Lane

/-- The effects of all recorded trades. -/
def effects : Lane → PaperStore → ℚ
  | .intraday, s => (s.tradeHistory.map TradeRow.effect).sum
  | .longTerm, s => (s.longTermTradeHistory.map LongTermTradeRow.effect).sum

def drift (lane : Lane) (s : PaperStore) : ℚ := lane.cash s - lane.effects s

/-- The recorded trades that spend cash. -/
def purchases : Lane → PaperStore → ℕ
  | .intraday, s => s.tradeHistory.countP (·.orderType ≠ .sell)
  | .longTerm, s => s.longTermTradeHistory.countP (·.orderType ≠ .sell)

end Lane

/-- `w` is `s` after whole trades, none of them a purchase of a blocked account. -/
structure Settles (s w : PaperStore) : Prop where
  drift : ∀ lane : Lane, lane.drift w = lane.drift s
  gate : ∀ lane : Lane, lane.purchases w ≠ lane.purchases s → s.blockedReason lane.accountId = none

theorem Settles.refl (s : PaperStore) : Settles s s := ⟨fun _ => rfl, fun _ h => (h rfl).elim⟩

/-- A write that leaves cash and trades alone. -/
theorem Settles.of_eq {s w w' : PaperStore} (h : Settles s w) (hc : ∀ lane : Lane, lane.cash w' = lane.cash w)
    (ht : w'.tradeHistory = w.tradeHistory) (hlt : w'.longTermTradeHistory = w.longTermTradeHistory) :
    Settles s w' := by
  have heffects : ∀ lane : Lane, lane.effects w' = lane.effects w := fun lane => by
    cases lane <;> simp [Lane.effects, ht, hlt]
  have hpurchases : ∀ lane : Lane, lane.purchases w' = lane.purchases w := fun lane => by
    cases lane <;> simp [Lane.purchases, ht, hlt]
  refine ⟨fun lane => ?_, fun lane hne => h.gate lane ?_⟩
  · rw [← h.drift lane, Lane.drift, Lane.drift, hc, heffects]
  · rwa [hpurchases] at hne

/-! ## Transactions -/

variable {ι : Type}

/-- What the open transaction of `i` has written so far are whole trades. -/
def Clean (i : ι) (f : WalFile ι PaperStore) : Prop := ∀ w, f.writer = some (i, w) → Settles f.db w

/-- The open transaction of `i` has moved the cash of a trade that it has not recorded. -/
def Outstanding (i : ι) (lane : Lane) (side : Side) (amount : ℚ) (f : WalFile ι PaperStore) : Prop :=
  ∃ w, f.writer = some (i, w) ∧
    (∀ m : Lane, m.drift w = m.drift f.db + if m = lane then side.signed amount else 0) ∧
    (∀ m : Lane, m.purchases w = m.purchases f.db) ∧
    (side = .buy → f.db.blockedReason lane.accountId = none)

/-- What each statement relies on. -/
def Stmt.assertion (i : ι) : Stmt → WalFile ι PaperStore → Prop
  | .acquire, _ | .rollback, _ => True
  | .select, f | .ignore, f | .move _ _ _ _, f | .begin, f => f.Idle i
  | .book lane side amount, f => Outstanding i lane side amount f
  | .inspect, f | .blocks, f | .commit, f => Clean i f

/-- A statement that writes waits for the write lock. -/
def Stmt.enabled (i : ι) : Stmt → WalFile ι PaperStore → Prop
  | .ignore, f | .move _ _ _ _, f | .book _ _ _, f | .blocks, f | .begin, f => f.CanWrite i
  | _, _ => True

/-- A method starts on an instance without an open transaction, and when its first write takes the lock, the cash of its
pool is what it has read, and the account of a purchase has no active block. -/
def Stmt.upToDate (i : ι) : Stmt → WalFile ι PaperStore → Prop
  | .acquire, f => f.Idle i
  | .move lane side cash _, f => lane.cash f.db = cash ∧ (side = .buy → f.db.blockedReason lane.accountId = none)
  | _, _ => True

/-- What each statement does to the file. -/
def StmtStep (i : ι) (_ : Stmt) (f f' : WalFile ι PaperStore) : Prop := f.Frame i f' ∧ Settles f.db f'.db

def Guard (i : ι) (l : Stmt) (f : WalFile ι PaperStore) : Prop := l.enabled i f ∧ l.upToDate i f

instance [DecidableEq ι] (i : ι) (l : Stmt) (f : WalFile ι PaperStore) : Decidable (l.enabled i f) :=
  match l with
  | .ignore | .move _ _ _ _ | .book _ _ _ | .blocks | .begin => inferInstanceAs (Decidable (f.CanWrite i))
  | .acquire | .select | .inspect | .commit | .rollback => isTrue trivial

instance [DecidableEq ι] (i : ι) (l : Stmt) (f : WalFile ι PaperStore) : Decidable (l.upToDate i f) :=
  match l with
  | .acquire => inferInstanceAs (Decidable (f.Idle i))
  | .move lane side cash _ =>
    inferInstanceAs (Decidable (lane.cash f.db = cash ∧ (side = .buy → f.db.blockedReason lane.accountId = none)))
  | .ignore | .book _ _ _ | .blocks | .begin | .select | .inspect | .commit | .rollback => isTrue trivial

instance [DecidableEq ι] (i : ι) (l : Stmt) (f : WalFile ι PaperStore) : Decidable (Guard i l f) :=
  inferInstanceAs (Decidable (l.enabled i f ∧ l.upToDate i f))

/-- The committed file holds the cash that its trades account for. -/
def CashKept (s₀ : PaperStore) (f : WalFile ι PaperStore) : Prop := ∀ lane : Lane, lane.drift f.db = lane.drift s₀

abbrev Trusted (s₀ : PaperStore) (i : ι) {α : Type} (p : InstanceProg ι α) : Prop :=
  Guarded (CashKept s₀) (Stmt.assertion i) (Guard i) (StmtStep i) p

theorem clean_of_idle {i : ι} {f : WalFile ι PaperStore} (h : f.Idle i) : Clean i f := fun w hw => (h w hw).elim

/-- The statements of one connection leave the assertions of the others standing. -/
theorem stmt_stable (s₀ : PaperStore) :
    GuardedStable (ι := ι) (CashKept s₀) Stmt.assertion Guard StmtStep := by
  intro i j _ l' f f' hij _ _ hstep hA
  obtain ⟨hframe, -⟩ := hstep
  have hji : j ≠ i := Ne.symm hij
  have hclean : Clean j f → Clean j f' := by
    intro hc w hw
    by_cases hidle : f.Idle j
    · exact (hframe.idle j hji hidle w hw).elim
    · obtain ⟨v, hv⟩ : ∃ v, f.writer = some (j, v) := by
        unfold WalFile.Idle at hidle
        push Not at hidle
        exact hidle
      rw [hframe.held j v hji hv] at hw ⊢
      exact hc w hw
  cases l' with
  | acquire | rollback => trivial
  | select | ignore | move _ _ _ _ | begin => exact hframe.idle j hji hA
  | book lane side amount =>
    obtain ⟨w, hw, hrest⟩ := hA
    rw [hframe.held j w hji hw]
    exact ⟨w, hw, hrest⟩
  | inspect | blocks | commit => exact hclean hA

/-! ## Statements -/

section Statements

variable [DecidableEq ι] {s₀ : PaperStore} {i : ι} {α β : Type}

/-- A statement that reads: whatever it returned, the next one may rely on what this one relied on. -/
theorem trusted_select {l : Stmt} {g : PaperStore → α} {k : α → InstanceProg ι β}
    (he : ∀ a f, l.assertion i f → (k a).entry (Stmt.assertion i) f) (hk : ∀ a, Trusted s₀ i (k a)) :
    Trusted s₀ i ((WalFile.select l i g).bind k) :=
  guarded_call (fun f hI hA _ => ⟨hI, ⟨.refl i f, .refl f.db⟩, he _ f hA⟩) fun f => hk (g (f.view i))

omit [DecidableEq ι] in
theorem trusted_acquire {k : Unit → InstanceProg ι β}
    (he : ∀ f : WalFile ι PaperStore, f.Idle i → (k ()).entry (Stmt.assertion i) f) (hk : Trusted s₀ i (k ())) :
    Trusted s₀ i (acquire.bind k) :=
  guarded_call (fun f hI _ hE => ⟨hI, ⟨.refl i f, .refl f.db⟩, he f hE.2⟩) fun _ => hk

/-- A statement that writes. -/
theorem trusted_write {l : Stmt} {g : PaperStore → PaperStore} {k : Unit → InstanceProg ι β}
    (hl : ∀ f, l.enabled i f → f.CanWrite i)
    (he : ∀ f : WalFile ι PaperStore, l.assertion i f → Guard i l f →
      (k ()).entry (Stmt.assertion i) (f.put i (g (f.view i)))) (hk : Trusted s₀ i (k ())) :
    Trusted s₀ i ((WalFile.write l i g).bind k) :=
  guarded_call (fun f hI hA hE => ⟨hI, ⟨WalFile.frame_put (hl f hE.1) _, .refl f.db⟩, he f hA hE⟩) fun _ => hk

theorem trusted_attempt {l : Stmt} {g : PaperStore → Option PaperStore} {k : Unit → InstanceProg ι β}
    (hl : ∀ f, l.enabled i f → f.CanWrite i)
    (he : ∀ (f : WalFile ι PaperStore) w, l.assertion i f → Guard i l f → g (f.view i) = some w →
      (k ()).entry (Stmt.assertion i) (f.put i w)) (hk : Trusted s₀ i (k ())) :
    Trusted s₀ i ((WalFile.attempt l i g).bind k) := by
  refine guarded_call (fun f hI hA hE => ⟨hI, ⟨WalFile.frame_put (hl f hE.1) _, .refl f.db⟩, ?_⟩) fun f => ?_
  · cases hg : g (f.view i) with
    | none => simp [hg, Prog.entry]
    | some w => simpa [hg] using he f w hA hE hg
  · cases hg : g (f.view i) with
    | none => simp [hg]
    | some w => simpa [hg] using hk

theorem cashKept_commit {f : WalFile ι PaperStore} (hI : CashKept s₀ f) (hA : Clean i f) :
    CashKept s₀ (f.commit i) ∧ Settles f.db (f.commit i).db := by
  by_cases hidle : f.Idle i
  · rw [WalFile.commit_of_idle hidle]
    exact ⟨hI, .refl f.db⟩
  · obtain ⟨w, hw⟩ : ∃ w, f.writer = some (i, w) := by
      unfold WalFile.Idle at hidle
      push Not at hidle
      exact hidle
    rw [WalFile.commit_of_writer hw]
    exact ⟨fun lane => ((hA w hw).drift lane).trans (hI lane), hA w hw⟩

theorem trusted_commit {k : Unit → InstanceProg ι β} (he : ∀ f, (k ()).entry (Stmt.assertion i) f)
    (hk : Trusted s₀ i (k ())) : Trusted s₀ i ((WalFile.doCommit .commit i).bind k) := by
  refine guarded_call (fun f hI hA _ => ?_) fun _ => hk
  obtain ⟨hI', hsettles⟩ := cashKept_commit hI hA
  exact ⟨hI', ⟨WalFile.frame_commit f i, hsettles⟩, he _⟩

/-- The last commit of a method that returns `a`. -/
theorem trusted_commit_ret (a : α) : Trusted s₀ i ((WalFile.doCommit .commit i).bind fun _ => .ret a) :=
  trusted_commit (fun _ => trivial) trivial

theorem trusted_refuse {g : PaperStore → PaperStore} (hc : ∀ (s : PaperStore) (lane : Lane), lane.cash (g s) = lane.cash s)
    (ht : ∀ s, (g s).tradeHistory = s.tradeHistory) (hlt : ∀ s, (g s).longTermTradeHistory = s.longTermTradeHistory) :
    Trusted s₀ i (refuse i g : InstanceProg ι (Option α)) := by
  refine trusted_write (fun _ h => h) (fun f hA _ w hw => ?_) (trusted_commit_ret none)
  obtain ⟨-, rfl⟩ := Prod.mk.inj (Option.some.inj hw)
  have hview : f.view i = f.db := WalFile.view_of_idle hA
  rw [hview]
  exact (Settles.refl f.db).of_eq (hc _) (ht _) (hlt _)

theorem trusted_recordIgnored (ticker : Ticker) (r : IgnoreReason) (action : AlertAction) (price : ℚ) (t : Timestamp)
    (h : Horizon) :
    Trusted s₀ i (refuse i (·.recordIgnored ticker r action price t h) : InstanceProg ι (Option α)) :=
  trusted_refuse (fun s lane => by cases lane <;> rfl) (fun _ => rfl) fun _ => rfl

end Statements

/-! ## Trades -/

section Trades

variable [DecidableEq ι] {s₀ : PaperStore} {i : ι} {α : Type}

/-- The transaction of a trade opens on the committed file and moves its cash. -/
theorem trusted_move {lane : Lane} {side : Side} {cash amount : ℚ} {g : PaperStore → PaperStore}
    {k : Unit → InstanceProg ι α} (hcash : ∀ s, lane.cash (g s) = cash + side.signed amount)
    (hother : ∀ (s : PaperStore) (m : Lane), m ≠ lane → m.cash (g s) = m.cash s)
    (ht : ∀ s, (g s).tradeHistory = s.tradeHistory) (hlt : ∀ s, (g s).longTermTradeHistory = s.longTermTradeHistory)
    (he : ∀ f, Outstanding i lane side amount f → (k ()).entry (Stmt.assertion i) f) (hk : Trusted s₀ i (k ())) :
    Trusted s₀ i ((WalFile.write (.move lane side cash amount) i g).bind k) := by
  refine trusted_write (fun _ h => h) (fun f hA hg => he _ ?_) hk
  have hview : f.view i = f.db := WalFile.view_of_idle hA
  obtain ⟨hread, hgate⟩ := hg.2
  have heffects : ∀ m : Lane, m.effects (g f.db) = m.effects f.db := fun m => by
    cases m <;> simp [Lane.effects, ht, hlt]
  rw [hview]
  refine ⟨g f.db, rfl, fun m => ?_, fun m => ?_, hgate⟩
  · by_cases hm : m = lane
    · subst hm
      have hdrift : m.drift (g f.db) = m.drift f.db + side.signed amount := by
        rw [Lane.drift, Lane.drift, hcash, heffects, ← hread]
        ring
      simpa using hdrift
    · simp [hm, Lane.drift, hother _ m hm, heffects]
  · cases m <;> simp [Lane.purchases, ht, hlt]

/-- A write that leaves cash and trades alone. -/
theorem outstanding_put {lane : Lane} {side : Side} {amount : ℚ} {f : WalFile ι PaperStore} {w : PaperStore}
    (h : Outstanding i lane side amount f) (hc : ∀ m : Lane, m.cash w = m.cash (f.view i))
    (ht : w.tradeHistory = (f.view i).tradeHistory)
    (hlt : w.longTermTradeHistory = (f.view i).longTermTradeHistory) :
    Outstanding i lane side amount (f.put i w) := by
  obtain ⟨v, hv, hdrift, hpurchases, hgate⟩ := h
  rw [WalFile.view_of_writer hv] at hc ht hlt
  have heffects : ∀ m : Lane, m.effects w = m.effects v := fun m => by
    cases m <;> simp [Lane.effects, ht, hlt]
  refine ⟨w, rfl, fun m => ?_, fun m => ?_, hgate⟩
  · rw [Lane.drift, hc, heffects]
    exact hdrift m
  · rw [WalFile.db_put, ← hpurchases m]
    cases m <;> simp [Lane.purchases, ht, hlt]

/-- The row of the trade accounts for the cash that was moved. -/
theorem clean_put {lane : Lane} {side : Side} {amount : ℚ} {f : WalFile ι PaperStore} {w : PaperStore}
    (h : Outstanding i lane side amount f) (hc : ∀ m : Lane, m.cash w = m.cash (f.view i))
    (he : ∀ m : Lane, m.effects w = m.effects (f.view i) + if m = lane then side.signed amount else 0)
    (hp : ∀ m : Lane, m.purchases w = m.purchases (f.view i) + if m = lane ∧ side = .buy then 1 else 0) :
    Clean i (f.put i w) := by
  obtain ⟨v, hv, hdrift, hpurchases, hgate⟩ := h
  rw [WalFile.view_of_writer hv] at hc he hp
  intro v' hv'
  obtain ⟨-, rfl⟩ := Prod.mk.inj (Option.some.inj hv')
  refine ⟨fun m => ?_, fun m hne => ?_⟩
  · have hm := hdrift m
    rw [Lane.drift] at hm
    rw [WalFile.db_put, Lane.drift, hc, he]
    linarith
  · by_cases hm : m = lane ∧ side = .buy
    · obtain ⟨rfl, hside⟩ := hm
      exact hgate hside
    · rw [hp, if_neg hm, hpurchases] at hne
      exact (hne rfl).elim

theorem effects_appendTrade (s : PaperStore) (t : TradeRow) (m : Lane) :
    m.effects (s.appendTrade t) = m.effects s + if m = .intraday then t.effect else 0 := by
  cases m <;> simp [Lane.effects, PaperStore.appendTrade]

theorem purchases_appendTrade (s : PaperStore) (t : TradeRow) (m : Lane) :
    m.purchases (s.appendTrade t) = m.purchases s + if m = .intraday ∧ t.orderType ≠ .sell then 1 else 0 := by
  cases m <;> simp [Lane.purchases, PaperStore.appendTrade, List.countP_append, List.countP_singleton]

theorem effects_appendLongTermTrade (s : PaperStore) (t : LongTermTradeRow) (m : Lane) :
    m.effects (s.appendLongTermTrade t) = m.effects s + if m = .longTerm then t.effect else 0 := by
  cases m <;> simp [Lane.effects, PaperStore.appendLongTermTrade]

theorem purchases_appendLongTermTrade (s : PaperStore) (t : LongTermTradeRow) (m : Lane) :
    m.purchases (s.appendLongTermTrade t) = m.purchases s + if m = .longTerm ∧ t.orderType ≠ .sell then 1 else 0 := by
  cases m <;> simp [Lane.purchases, PaperStore.appendLongTermTrade, List.countP_append, List.countP_singleton]

theorem trusted_appendTrade {side : Side} {amount : ℚ} {t : TradeRow} {k : Unit → InstanceProg ι α}
    (he : t.effect = side.signed amount) (hside : t.orderType ≠ .sell ↔ side = .buy)
    (hentry : ∀ f, Clean i f → (k ()).entry (Stmt.assertion i) f) (hk : Trusted s₀ i (k ())) :
    Trusted s₀ i ((WalFile.write (.book .intraday side amount) i (·.appendTrade t)).bind k) := by
  refine trusted_write (fun _ h => h) (fun f hA _ => hentry _ (clean_put hA (fun m => by cases m <;> rfl) ?_ ?_)) hk
  · exact fun m => by rw [effects_appendTrade, he]
  · exact fun m => by simp only [purchases_appendTrade, hside]

theorem trusted_appendLongTermTrade {side : Side} {amount : ℚ} {t : LongTermTradeRow} {k : Unit → InstanceProg ι α}
    (he : t.effect = side.signed amount) (hside : t.orderType ≠ .sell ↔ side = .buy)
    (hentry : ∀ f, Clean i f → (k ()).entry (Stmt.assertion i) f) (hk : Trusted s₀ i (k ())) :
    Trusted s₀ i ((WalFile.write (.book .longTerm side amount) i (·.appendLongTermTrade t)).bind k) := by
  refine trusted_write (fun _ h => h) (fun f hA _ => hentry _ (clean_put hA (fun m => by cases m <;> rfl) ?_ ?_)) hk
  · exact fun m => by rw [effects_appendLongTermTrade, he]
  · exact fun m => by simp only [purchases_appendLongTermTrade, hside]

end Trades

/-! ## Methods -/

section Methods

variable [DecidableEq ι] {s₀ : PaperStore} {i : ι}

theorem trusted_buyRows (ticker : Ticker) (shares price cost : ℚ) (t : Timestamp) (stop target : Option ℚ) (cash : ℚ) :
    Trusted s₀ i (buyRows i ticker shares price cost t stop target cash) := by
  unfold buyRows
  simp only [Prog.bind_eq]
  refine trusted_move (fun s => sub_eq_add_neg cash cost) (fun s m hm => ?_) (fun _ => rfl) (fun _ => rfl)
    (fun f h => h) ?_
  · cases m with
    | intraday => exact (hm rfl).elim
    | longTerm => rfl
  refine trusted_attempt (fun _ h => h) (fun f w hA _ hw => ?_) ?_
  · obtain ⟨ps, -, rfl⟩ := Option.map_eq_some_iff.1 hw
    exact outstanding_put hA (fun m => by cases m <;> rfl) rfl rfl
  refine trusted_appendTrade rfl (by simp [PaperStore.buyTrade]) (fun f h => h) ?_
  exact trusted_select (fun _ f h => h) fun _ => trusted_commit_ret _

theorem trusted_executeBuy (ticker : Ticker) (shares price cost : ℚ) (t : Timestamp) (stop target : Option ℚ) :
    Trusted s₀ i (executeBuy i ticker shares price cost t stop target) := by
  refine trusted_acquire (fun f h => h) (trusted_select (fun br f h => ?_) fun br => ?_)
  · cases br <;> exact h
  cases br with
  | some blocks => exact trusted_recordIgnored _ _ _ _ _ _
  | none =>
    refine trusted_select (fun cash f h => ?_) fun cash => ?_
    · split <;> exact h
    split
    · exact trusted_recordIgnored _ _ _ _ _ _
    · exact trusted_buyRows _ _ _ _ _ _ _ _

theorem trusted_sellRows (pos : Position) (exitPrice : ℚ) (t : Timestamp) (action : AlertAction) (held : ℤ)
    (portfolio : Portfolio) : Trusted s₀ i (sellRows i pos exitPrice t action held portfolio) := by
  unfold sellRows
  simp only [Prog.bind_eq]
  refine trusted_move (fun s => rfl) (fun s m hm => ?_) (fun _ => rfl) (fun _ => rfl) (fun f h => h) ?_
  · cases m with
    | intraday => exact (hm rfl).elim
    | longTerm => rfl
  refine trusted_write (fun _ h => h) (fun f hA _ => ?_) ?_
  · exact outstanding_put hA (fun m => by cases m <;> rfl) rfl rfl
  exact trusted_appendTrade rfl (by simp [PaperStore.sellTrade]) (fun f h => h) (trusted_commit_ret _)

theorem trusted_executeSell (ticker : Ticker) (exitPrice : ℚ) (t : Timestamp) (action : AlertAction) :
    Trusted s₀ i (executeSell i ticker exitPrice t action) := by
  refine trusted_acquire (fun f h => h) (trusted_select (fun row f h => ?_) fun row => ?_)
  · cases row with
    | none => trivial
    | some pos =>
      cases hheld : t.minus pos.entryTimestamp with
      | none => simp only [hheld]; trivial
      | some held => simp only [hheld]; exact h
  cases row with
  | none => trivial
  | some pos =>
    cases hheld : t.minus pos.entryTimestamp with
    | none => simp only [hheld]; trivial
    | some held =>
      simp only [hheld]
      exact trusted_select (fun portfolio f h => h) fun portfolio => trusted_sellRows _ _ _ _ _ _

theorem trusted_longTermBuyRows (ticker : Ticker) (shares price cost : ℚ) (t : Timestamp) (cash : ℚ) :
    Trusted s₀ i (longTermBuyRows i ticker shares price cost t cash) := by
  unfold longTermBuyRows
  simp only [Prog.bind_eq]
  refine trusted_move (fun s => sub_eq_add_neg cash cost) (fun s m hm => ?_) (fun _ => rfl) (fun _ => rfl)
    (fun f h => h) ?_
  · cases m with
    | intraday => rfl
    | longTerm => exact (hm rfl).elim
  refine trusted_attempt (fun _ h => h) (fun f w hA _ hw => ?_) ?_
  · obtain ⟨ps, -, rfl⟩ := Option.map_eq_some_iff.1 hw
    exact outstanding_put hA (fun m => by cases m <;> rfl) rfl rfl
  exact trusted_appendLongTermTrade rfl (by simp [PaperStore.longTermBuyTrade]) (fun f h => h) (trusted_commit_ret _)

theorem trusted_executeLongTermBuy (ticker : Ticker) (shares price cost : ℚ) (t : Timestamp) :
    Trusted s₀ i (executeLongTermBuy i ticker shares price cost t) := by
  refine trusted_acquire (fun f h => h) (trusted_select (fun br f h => ?_) fun br => ?_)
  · cases br <;> exact h
  cases br with
  | some blocks => exact trusted_recordIgnored _ _ _ _ _ _
  | none =>
    refine trusted_select (fun cash f h => ?_) fun cash => ?_
    · split <;> exact h
    split
    · exact trusted_recordIgnored _ _ _ _ _ _
    · exact trusted_longTermBuyRows _ _ _ _ _ _

theorem trusted_dcaRows (pos : LongTermPosition) (contributionUsd price : ℚ) (t : Timestamp) (cash : ℚ) :
    Trusted s₀ i (dcaRows i pos contributionUsd price t cash) := by
  unfold dcaRows
  simp only [Prog.bind_eq]
  refine trusted_move (fun s => sub_eq_add_neg cash contributionUsd) (fun s m hm => ?_) (fun _ => rfl) (fun _ => rfl)
    (fun f h => h) ?_
  · cases m with
    | intraday => rfl
    | longTerm => exact (hm rfl).elim
  refine trusted_write (fun _ h => h) (fun f hA _ => ?_) ?_
  · exact outstanding_put hA (fun m => by cases m <;> rfl) rfl rfl
  exact trusted_appendLongTermTrade rfl (by simp [PaperStore.dcaTrade]) (fun f h => h) (trusted_commit_ret _)

theorem trusted_executeDcaContribution (ticker : Ticker) (contributionUsd price : ℚ) (t : Timestamp) :
    Trusted s₀ i (executeDcaContribution i ticker contributionUsd price t) := by
  refine trusted_acquire (fun f h => h) (trusted_select (fun br f h => ?_) fun br => ?_)
  · cases br <;> exact h
  cases br with
  | some blocks => exact trusted_recordIgnored _ _ _ _ _ _
  | none =>
    refine trusted_select (fun row f h => ?_) fun row => ?_
    · cases row with
      | none => trivial
      | some pos =>
        dsimp only
        split
        · trivial
        · exact h
    cases row with
    | none => trivial
    | some pos =>
      dsimp only
      split
      · trivial
      refine trusted_select (fun cash f h => ?_) fun cash => ?_
      · split <;> exact h
      split
      · exact trusted_recordIgnored _ _ _ _ _ _
      · exact trusted_dcaRows _ _ _ _ _

theorem trusted_longTermSellRows (pos : LongTermPosition) (fraction exitPrice : ℚ) (t : Timestamp)
    (action : AlertAction) (held : ℤ) (portfolio : Portfolio) :
    Trusted s₀ i (longTermSellRows i pos fraction exitPrice t action held portfolio) := by
  unfold longTermSellRows
  simp only [Prog.bind_eq]
  refine trusted_move (fun s => rfl) (fun s m hm => ?_) (fun _ => rfl) (fun _ => rfl) (fun f h => h) ?_
  · cases m with
    | intraday => rfl
    | longTerm => exact (hm rfl).elim
  have htrim : ∀ s : PaperStore, (∀ m : Lane, m.cash (s.trimPosition fraction pos) = m.cash s) ∧
      (s.trimPosition fraction pos).tradeHistory = s.tradeHistory ∧
      (s.trimPosition fraction pos).longTermTradeHistory = s.longTermTradeHistory := by
    intro s
    unfold PaperStore.trimPosition
    split <;> exact ⟨fun m => by cases m <;> rfl, rfl, rfl⟩
  refine trusted_write (fun _ h => h) (fun f hA _ => ?_) ?_
  · exact outstanding_put hA (htrim _).1 (htrim _).2.1 (htrim _).2.2
  exact trusted_appendLongTermTrade rfl (by simp [PaperStore.longTermSellTrade]) (fun f h => h) (trusted_commit_ret _)

theorem trusted_executeLongTermSell (ticker : Ticker) (trimFraction exitPrice : ℚ) (t : Timestamp)
    (action : AlertAction) : Trusted s₀ i (executeLongTermSell i ticker trimFraction exitPrice t action) := by
  refine trusted_acquire (fun f h => h) (trusted_select (fun row f h => ?_) fun row => ?_)
  · cases row with
    | none => trivial
    | some pos =>
      cases hheld : t.minus pos.firstEntryAt with
      | none => simp only [hheld]; trivial
      | some held => simp only [hheld]; exact h
  cases row with
  | none => trivial
  | some pos =>
    cases hheld : t.minus pos.firstEntryAt with
    | none => simp only [hheld]; trivial
    | some held =>
      simp only [hheld]
      exact trusted_select (fun portfolio f h => h) fun portfolio => trusted_longTermSellRows _ _ _ _ _ _ _

theorem clean_blocks {f : WalFile ι PaperStore} {w : PaperStore} (h : Clean i f)
    (hc : ∀ m : Lane, m.cash w = m.cash (f.view i)) (ht : w.tradeHistory = (f.view i).tradeHistory)
    (hlt : w.longTermTradeHistory = (f.view i).longTermTradeHistory) : Clean i (f.put i w) := by
  intro v hv
  obtain ⟨-, rfl⟩ := Prod.mk.inj (Option.some.inj hv)
  have hview : Settles f.db (f.view i) := by
    unfold WalFile.view
    split
    · rename_i j u hu
      split
      · rename_i hj
        exact h u (hj ▸ hu)
      · exact .refl f.db
    · exact .refl f.db
  exact hview.of_eq hc ht hlt

theorem trusted_recordAccountBlock (now : Instant) (accountId : String) (reasonType : BlockReason)
    (reference : String) : Trusted s₀ i (recordAccountBlock i now accountId reasonType reference) := by
  refine trusted_acquire (fun f h => clean_of_idle h) (trusted_write (fun _ h => h) (fun f hA _ => ?_) ?_)
  · exact clean_blocks hA (fun m => by cases m <;> rfl) rfl rfl
  · exact trusted_commit_ret ()

theorem trusted_rollback {k : Unit → InstanceProg ι Unit} (he : ∀ f, (k ()).entry (Stmt.assertion i) f)
    (hk : Trusted s₀ i (k ())) : Trusted s₀ i ((WalFile.doRollback .rollback i).bind k) := by
  refine guarded_call (fun f hI _ _ => ?_) fun _ => hk
  have hdb : (f.rollback i).db = f.db := WalFile.rollback_db f i
  refine ⟨fun lane => by rw [hdb]; exact hI lane, ⟨WalFile.frame_rollback f i, ?_⟩, he _⟩
  rw [hdb]
  exact .refl f.db

theorem trusted_clearLocked (lane : Lane) (reconciled : Bool) (now : Instant) (q : ClearanceRequest) :
    Trusted s₀ i (clearLocked i lane reconciled now q) := by
  unfold clearLocked
  simp only [Prog.bind_eq]
  refine trusted_select (fun row f h => ?_) fun row => ?_
  · split
    · trivial
    · exact h
  split
  · trivial
  refine trusted_attempt (fun _ h => h) (fun f w hA _ hw => ?_) ?_
  · obtain ⟨r, -, rfl⟩ := Option.map_eq_some_iff.1 hw
    exact clean_blocks hA (fun m => by cases m <;> rfl) rfl rfl
  · exact trusted_commit_ret ()

theorem trusted_beginImmediate {k : Unit → InstanceProg ι Unit}
    (he : ∀ f, Clean i f → (k ()).entry (Stmt.assertion i) f) (hk : Trusted s₀ i (k ())) :
    Trusted s₀ i ((beginImmediate i).bind k) := by
  refine guarded_call (fun f hI hA hE => ⟨hI, ⟨WalFile.frame_put hE.1 _, .refl f.db⟩, ?_⟩) fun f => ?_
  · have hfree : (f.writer.any fun w => w.1 = i) = false := by
      cases hw : f.writer with
      | none => rfl
      | some w =>
        refine decide_eq_false ?_
        rintro rfl
        exact hA w.2 hw
    have hclean : Clean i (f.put i (f.view i)) :=
      clean_blocks (clean_of_idle hA) (fun _ => rfl) rfl rfl
    simpa [hfree] using he _ hclean
  · cases hbusy : f.writer.any fun w => decide (w.1 = i) with
    | true => simp [hbusy]
    | false => simpa [hbusy] using hk

theorem trusted_clearBlock (lane : Lane) (reconciled : Bool) (now : Instant) (q : ClearanceRequest) :
    Trusted s₀ i (clearBlock i lane reconciled now q) := by
  have hrollback : Trusted s₀ i ((WalFile.doRollback .rollback i).bind fun _ => (.raise : InstanceProg ι Unit)) :=
    trusted_rollback (fun _ => trivial) trivial
  refine trusted_acquire (fun f h => h) (trusted_beginImmediate (fun f h => h) ?_)
  exact guarded_tryCatch (trusted_clearLocked lane reconciled now q) hrollback fun _ _ => trivial

theorem InstanceJob.trusted (j : InstanceJob) : Trusted s₀ i (j.prog i) ∧ (j.prog i).Free (CashKept s₀) (Stmt.assertion i) := by
  have hret : ∀ {α : Type} {p : InstanceProg ι α}, Trusted s₀ i p → Trusted s₀ i (p.bind fun _ => .ret ()) :=
    fun hp => guarded_bind hp (fun _ => trivial) fun _ _ _ => trivial
  cases j with
  | executeBuy ticker shares price cost t stop target =>
    exact ⟨hret (trusted_executeBuy _ _ _ _ _ _ _), fun _ _ => trivial⟩
  | executeSell ticker exitPrice t action => exact ⟨hret (trusted_executeSell _ _ _ _), fun _ _ => trivial⟩
  | executeLongTermBuy ticker shares price cost t =>
    exact ⟨hret (trusted_executeLongTermBuy _ _ _ _ _), fun _ _ => trivial⟩
  | executeDcaContribution ticker contributionUsd price t =>
    exact ⟨hret (trusted_executeDcaContribution _ _ _ _), fun _ _ => trivial⟩
  | executeLongTermSell ticker trimFraction exitPrice t action =>
    exact ⟨hret (trusted_executeLongTermSell _ _ _ _ _), fun _ _ => trivial⟩
  | recordAccountBlock now accountId reasonType reference =>
    exact ⟨trusted_recordAccountBlock _ _ _ _, fun _ _ => trivial⟩
  | clearBlock lane reconciled now q => exact ⟨trusted_clearBlock _ _ _ _, fun _ _ => trivial⟩
  | reopen => exact ⟨trusted_rollback (k := fun _ => .ret ()) (fun _ => trivial) trivial, fun _ _ => trivial⟩

end Methods

/-! ## Every interleaving -/

section Runs

variable [DecidableEq ι]

/-- An instance starts one of its methods. -/
def instanceStarts (i : ι) (p : InstanceProg ι Unit) : Prop := ∃ j : InstanceJob, p = j.prog i

/-- The locking of the file. -/
def locked (S : Sys ι Stmt (WalFile ι PaperStore)) : Move ι Stmt → Prop
  | .commit i l => l.enabled i S.store
  | _ => True

/-- The locking, and a first write that finds what its method has read. -/
def lockedUpToDate (S : Sys ι Stmt (WalFile ι PaperStore)) : Move ι Stmt → Prop
  | .commit i l => Guard i l S.store
  | _ => True

/-- The file as an interleaving starts with it: nothing is open. -/
def closed (s₀ : PaperStore) : Sys ι Stmt (WalFile ι PaperStore) := Sys.idle ⟨s₀, none⟩

theorem reach_trusted {s₀ : PaperStore} {S : Sys ι Stmt (WalFile ι PaperStore)}
    (h : Reach instanceStarts lockedUpToDate (closed s₀) S) :
    GuardedSound (CashKept s₀) Stmt.assertion Guard StmtStep S := by
  refine Reach.guarded ?_ (stmt_stable s₀) (fun _ _ _ ha => ha) (.idle fun _ => rfl) h
  rintro i p ⟨j, rfl⟩
  exact j.trusted

/-- In every interleaving of the statements of any instances on one file, whatever raises, stops or is rolled back, in
which each first write finds what its method has read: the cash of each pool is the initial cash and the effects of the
committed trades, and no step commits a purchase while the committed file holds an active block of its account. -/
theorem no_lost_update {s₀ : PaperStore} {S : Sys ι Stmt (WalFile ι PaperStore)}
    (h : Reach instanceStarts lockedUpToDate (closed s₀) S) :
    (∀ lane : Lane, lane.cash S.store.db = lane.cash s₀ + (lane.effects S.store.db - lane.effects s₀)) ∧
      ∀ i l S', Step instanceStarts S (.commit i l) S' → lockedUpToDate S (.commit i l) → ∀ lane : Lane,
        lane.purchases S'.store.db ≠ lane.purchases S.store.db →
          S.store.db.blockedReason lane.accountId = none := by
  have hsound := reach_trusted h
  refine ⟨fun lane => ?_, fun i l S' hs ha lane hne => (hsound.commit ha hs).2.gate lane hne⟩
  have hdrift := hsound.inv lane
  rw [Lane.drift, Lane.drift] at hdrift
  linarith

/-! ## Samples -/

instance (S : Sys ι Stmt (WalFile ι PaperStore)) (i : ι) (l : Stmt) : Decidable (locked S (.commit i l)) :=
  inferInstanceAs (Decidable (l.enabled i S.store))

instance (S : Sys ι Stmt (WalFile ι PaperStore)) (i : ι) (l : Stmt) : Decidable (lockedUpToDate S (.commit i l)) :=
  inferInstanceAs (Decidable (Guard i l S.store))

end Runs

/-- Two instances on one file are about to buy a ticker each. -/
def twoBuyers : Sys Bool Stmt (WalFile Bool PaperStore) :=
  ((closed (PaperStore.init 10000 2000 5000 100)).start true
    (InstanceJob.prog true (.executeBuy "AAA" 100 10 1000 ⟨0, true⟩ none none))).start false
      (InstanceJob.prog false (.executeBuy "BBB" 100 10 1000 ⟨0, true⟩ none none))

theorem reach_twoBuyers {allow : Sys Bool Stmt (WalFile Bool PaperStore) → Move Bool Stmt → Prop}
    (ha : ∀ S i, allow S (.start i)) :
    Reach instanceStarts allow (closed (PaperStore.init 10000 2000 5000 100)) twoBuyers :=
  (Reach.refl.step (.start (i := true) rfl ⟨_, rfl⟩) (ha _ _)).step (.start (i := false) rfl ⟨_, rfl⟩) (ha _ _)

/-- One buyer after the other. -/
def inTurn : List Bool := List.replicate 8 true ++ List.replicate 8 false

/-- Both buyers read the cash before either writes it. -/
def bothReadFirst : List Bool :=
  List.replicate 3 true ++ List.replicate 3 false ++ List.replicate 5 true ++ List.replicate 5 false

theorem no_lost_update_sample :
    let S := twoBuyers.commits inTurn
    S.store.db.tradeHistory.length = 2 ∧ S.store.db.portfolio.currentCash = 8000 ∧
      ∀ lane : Lane, lane.cash S.store.db = lane.cash (PaperStore.init 10000 2000 5000 100) +
        (lane.effects S.store.db - lane.effects (PaperStore.init 10000 2000 5000 100)) := by
  intro S
  have hreach : Reach instanceStarts lockedUpToDate (closed (PaperStore.init 10000 2000 5000 100)) S :=
    (reach_twoBuyers fun _ _ => trivial).permits (by decide +kernel)
  exact ⟨by decide +kernel, by decide +kernel, (no_lost_update hreach).1⟩

/-- The second buyer writes the cash that it read before the first one's trade. -/
theorem lost_update :
    ∃ S : Sys Bool Stmt (WalFile Bool PaperStore),
      Reach instanceStarts locked (closed (PaperStore.init 10000 2000 5000 100)) S ∧
        S.store.db.tradeHistory.length = 2 ∧
        Lane.intraday.cash S.store.db ≠ Lane.intraday.cash (PaperStore.init 10000 2000 5000 100) +
          (Lane.intraday.effects S.store.db - Lane.intraday.effects (PaperStore.init 10000 2000 5000 100)) := by
  have hreach : Reach instanceStarts locked (closed (PaperStore.init 10000 2000 5000 100))
      (twoBuyers.commits bothReadFirst) :=
    (reach_twoBuyers fun _ _ => trivial).permits (by decide +kernel)
  exact ⟨_, hreach, by decide +kernel, by decide +kernel⟩

/-- One instance is about to buy, another one to record a block of the account. -/
def buyerAndBlocker : Sys Bool Stmt (WalFile Bool PaperStore) :=
  ((closed (PaperStore.init 10000 2000 5000 100)).start true
    (InstanceJob.prog true (.executeBuy "AAA" 100 10 1000 ⟨0, true⟩ none none))).start false
      (InstanceJob.prog false (.recordAccountBlock 0 originalIntradayAccountId .cashDeficit "no_negative_cash"))

/-- The block is committed after the buyer has read the gate. -/
def blockedAfterGate : Sys Bool Stmt (WalFile Bool PaperStore) :=
  buyerAndBlocker.commits (List.replicate 3 true ++ List.replicate 3 false ++ List.replicate 4 true)

/-- The purchase commits all the same. -/
theorem purchase_past_block :
    Reach instanceStarts locked (closed (PaperStore.init 10000 2000 5000 100)) blockedAfterGate ∧
      blockedAfterGate.store.db.blockedReason Lane.intraday.accountId ≠ none ∧
      Lane.intraday.purchases (blockedAfterGate.commit true).store.db ≠
        Lane.intraday.purchases blockedAfterGate.store.db := by
  have hstart : Reach instanceStarts locked (closed (PaperStore.init 10000 2000 5000 100)) buyerAndBlocker :=
    (Reach.refl.step (.start (i := true) rfl ⟨_, rfl⟩) trivial).step (.start (i := false) rfl ⟨_, rfl⟩) trivial
  exact ⟨hstart.permits (by decide +kernel), by decide +kernel, by decide +kernel⟩

end TalonX.Paper
