import TalonX.V2.Calls
import TalonX.V2.Pricing

/-!
# The exit window

A due position without a close is given up when `ripe_through` has reached the last fall-forward session. That session
may be in the future, be trading, or have a bar that cannot be final yet.

- `findExit_none`: a search that finds nothing has looked at every session of the window;
- `WindowOver`: every bar of the window could have been final, and none had a close;
- `Premature`: an open position without a close whose last fall-forward session cannot be final yet;
- `exit_window_honoured`: every run whose ticks are never premature;
- `exit_window_cut`: a tick gives up while the last session is trading.
-/

set_option autoImplicit false

namespace TalonX.V2

open Transact

variable {cal : Calendar} {cfg : V2Config} {s s' : Store} {i : TickInput}

/-! ## The search -/

theorem findFallforward_none {price : Date → Option Bar} {target asOf : Date} (ht : target ∈ cal.sessions) :
    ∀ {n k : ℕ}, findFallforward cal price target asOf k n = some none → ∀ j, k ≤ j → j < k + n → ∀ d,
      cal.addSessions target j = some d → d ≤ asOf → price d = none := by
  intro n
  induction n with
  | zero => intro k _ j hkj hjk; omega
  | succ n ih =>
    intro k h j hkj hjk d hd hdasOf
    obtain ⟨m, hm, -⟩ := Calendar.idxOf_of_mem ht
    unfold findFallforward at h
    split at h
    · cases h
    rename_i nxt hnxt
    split at h
    · -- the search stopped before the session `k`, so `j` is beyond it too
      rename_i hbreak
      rw [Calendar.addSessions_natCast hm] at hnxt hd
      exact absurd (Nat.le_trans (Calendar.sessions_le_of_le hnxt hd (by omega)) hdasOf) (Nat.not_le.2 hbreak)
    split at h
    · cases h
    rename_i hnone
    rcases Nat.lt_or_eq_of_le hkj with hlt | rfl
    · exact ih h j hlt (by omega) d hd hdasOf
    · rw [hd] at hnxt
      rwa [Option.some.inj hnxt]

/-- Nothing found by `asOf`: no session up to the last one of the window has a close. -/
theorem findExit_none {price : Date → Option Bar} {target asOf lastFf : Date} (ht : target ∈ cal.sessions)
    (h : findExit cal cfg price target asOf = some none)
    (hl : cal.addSessions target cfg.exitFallforwardMaxSessions = some lastFf) (hle : lastFf ≤ asOf) :
    ∀ d ∈ cal.sessions, target ≤ d → d ≤ lastFf → price d = none := by
  intro d hd htd hdl
  unfold findExit at h
  split at h
  · cases h
  rename_i hnone
  obtain ⟨k, hk, hkd⟩ := Calendar.exists_addSessions ht hl hd htd hdl
  rcases Nat.eq_zero_or_pos k with rfl | hpos
  · obtain ⟨m, hm, hget⟩ := Calendar.idxOf_of_mem ht
    rw [Calendar.addSessions_natCast hm, Nat.add_zero, hget] at hkd
    rwa [← Option.some.inj hkd]
  · exact findFallforward_none ht h k hpos (by omega) d hkd (Nat.le_trans hdl hle)

/-! ## The window -/

/-- The pricing resolver of a tick: a pinned tick prices at the start of its date. -/
def TickInput.resolver (i : TickInput) : PricingResolver :=
  ⟨i.today, if i.live then i.now else dayStart i.today, i.strict⟩

/-- Every bar of the position's exit window could have been final at the tick, and none had a close. -/
def TickInput.WindowOver (cal : Calendar) (cfg : V2Config) (i : TickInput) (p : Position) : Prop :=
  ∃ lastFf, cal.addSessions p.targetExitSession cfg.exitFallforwardMaxSessions = some lastFf ∧
    ∀ d ∈ cal.sessions, p.targetExitSession ≤ d → d ≤ lastFf →
      i.resolver.couldBeFinal cal d = true ∧ i.closePrice p.symbol d = none

/-- `ripe_through` has reached the end of the window of an open position without a close, but the last bar cannot be
final yet. -/
def TickInput.Premature (cal : Calendar) (cfg : V2Config) (i : TickInput) (s : Store) : Prop :=
  ∃ p ∈ s.positions.rows, p.status = .open ∧ ∃ ripe lastFf, i.ripeThrough cal = some ripe ∧
    cal.addSessions p.targetExitSession cfg.exitFallforwardMaxSessions = some lastFf ∧ lastFf ≤ ripe ∧
    i.resolver.couldBeFinal cal lastFf = false ∧
    ∀ d ∈ cal.sessions, p.targetExitSession ≤ d → d ≤ lastFf → i.closePrice p.symbol d = none

/-- The step gives an open position up for want of bars only when its window is over. -/
def HonoursWindow (cal : Calendar) (cfg : V2Config) (i : TickInput) (l : Call) (s s' : Store) : Prop :=
  ∀ p ∈ s.positions.rows, p.status = .open → l = .markExitUnresolved p.positionId .noBar →
    (∃ p' ∈ s'.positions.rows, p'.positionId = p.positionId ∧ p'.status = .exitUnresolved) → i.WindowOver cal cfg p

theorem honoursWindow_of_positions {l : Call} (h : s'.positions = s.positions) : HonoursWindow cal cfg i l s s' := by
  rintro p hp hopen - ⟨p', hp', hid, hst⟩
  rw [h] at hp'
  rw [s.positions.eq_of_id hp' hp hid, hopen] at hst
  cases hst

/-- Target exits are sessions. -/
def TargetsAreSessions (cal : Calendar) (s : Store) : Prop :=
  ∀ p ∈ s.positions.rows, p.targetExitSession ∈ cal.sessions

theorem TargetsAreSessions.keepsRows (h : TargetsAreSessions cal s) (hk : KeepsRows s s') :
    TargetsAreSessions cal s' := by
  intro p hp
  obtain ⟨q, hq, hsame⟩ := hk p hp
  rw [hsame]
  exact h q hq

theorem EntryCall.targets {of : TickInput → Prop} {l : Call} (h : EntryCall cal cfg of l s s')
    (ht : TargetsAreSessions cal s) : TargetsAreSessions cal s' ∧ HonoursWindow cal cfg i l s s' := by
  have same : ∀ {t : Store}, t.positions = s.positions → TargetsAreSessions cal t ∧ HonoursWindow cal cfg i l s t :=
    fun heq => ⟨ht.keepsRows (.of_eq heq), honoursWindow_of_positions heq⟩
  cases h with
  | rollback j e s => exact same rfl
  | intent h => exact same h.frame.1
  | fill h =>
    rcases fillTxn_cases h with ⟨rfl, -⟩ | ⟨-, why, rfl, -⟩ | ⟨row, px, n, hf, -⟩
    · exact same rfl
    · exact same rfl
    · refine ⟨fun p hp => ?_, fun _ _ _ hl => nomatch hl⟩
      rw [hf.positions.1] at hp
      rcases List.mem_append.1 hp with hp | hp
      · exact ht p hp
      · rw [List.mem_singleton.1 hp]
        exact hf.positions.2

/-! ## The contract -/

/-- What a tick may do, when it is nowhere premature. -/
def windowing (cal : Calendar) (cfg : V2Config) (i : TickInput) : Contract Call Store where
  commit l s s' := TargetsAreSessions cal s' ∧ HonoursWindow cal cfg i l s s'
  mayFault _ _ := True
  atCrash := TargetsAreSessions cal
  mayReach _ s := ¬ i.Premature cal cfg s

variable {α : Type} {p : Prog Call Store α}

theorem windowing_of_entryCalls {of : TickInput → Prop} (hp : Calls (EntryCall cal cfg of) p)
    (h : TargetsAreSessions cal s) :
    wp (windowing cal cfg i) p (fun _ => TargetsAreSessions cal) (TargetsAreSessions cal) s :=
  wp_of_keeps (keeps_mono (H := (windowing cal cfg i).commit) hp (fun _ _ => trivial)
    fun _ _ _ ht hc => ⟨(hc.targets (i := i) ht).1, hc.targets ht⟩)
    (fun _ _ _ _ h => h) (fun _ _ h _ => h) h

/-- In the settlement loop. -/
structure Windowing (cal : Calendar) (due : List Position) (s : Store) : Prop where
  targets : TargetsAreSessions cal s
  tied : Tied due s

variable {due : List Position}

theorem Windowing.keepsRows (h : Windowing cal due s) (hk : KeepsRows s s') : Windowing cal due s' :=
  ⟨h.targets.keepsRows hk, h.tied.keepsRows hk⟩

theorem windowing_of_upkeep (hp : Calls UpkeepCall p) (h : Windowing cal due s) :
    wp (windowing cal cfg i) p (fun _ => Windowing cal due) (TargetsAreSessions cal) s := by
  refine wp_mono (fun _ _ h => h) (fun _ h => h.targets) (wp_of_keeps
    (keeps_mono (J := Windowing cal due) (H := (windowing cal cfg i).commit) hp (fun _ _ => trivial)
      fun l t t' ht hu => ?_) (fun _ _ _ _ h => h) (fun _ _ h _ => h.targets) h)
  obtain ⟨cash, trail, ents, rfl⟩ := hu.frame
  exact ⟨⟨ht.targets, ht.tied⟩, ht.targets, honoursWindow_of_positions rfl⟩

/-- Giving a position up is allowed for another reason, or when its window is over. -/
theorem windowing_markUnresolved {pid : ℕ} {why : UnresolvedReason} (h : Windowing cal due s)
    (hwhy : ¬ i.Premature cal cfg s → why = .noBar →
      ∀ p ∈ s.positions.rows, p.status = .open → p.positionId = pid → i.WindowOver cal cfg p) :
    wp (windowing cal cfg i) (markUnresolved cfg pid why) (fun _ => Windowing cal due) (TargetsAreSessions cal) s := by
  refine wp_of_reach (fun _ => ⟨h.targets, h.targets⟩) fun hnot => wp_txn (fun r s' hr => ?_)
    (fun _ => ⟨⟨h.targets, honoursWindow_of_positions rfl⟩, h.targets⟩) fun _ => ⟨h.targets, h.targets⟩
  obtain ⟨s'', hs, heq⟩ := Option.map_eq_some_iff.1 hr
  simp only [Prod.mk.injEq] at heq
  obtain ⟨-, rfl⟩ := heq
  obtain ⟨ps, bs, hrows, rfl⟩ := Store.markExitUnresolved_cases hs
  have hk : KeepsRows s { s with positions := ps, blocks := bs } := .of_update hrows fun _ => rfl
  have hnext := h.keepsRows hk
  refine ⟨⟨hnext.targets, fun p hp hopen hl _ => ?_⟩, hnext⟩
  simp only [Call.markExitUnresolved.injEq] at hl
  exact hwhy hnot hl.2 p hp hopen hl.1.symm

theorem windowing_settleAt {pos : Position} {es : Date} {px : Bar} {divs : List CorporateActionEvent}
    {exits : List ExitRecord} (h : Windowing cal due s) :
    wp (windowing cal cfg i) (settleAt cal cfg pos es px divs exits) (fun _ => Windowing cal due)
      (TargetsAreSessions cal) s := by
  refine wp_then (I := fun _ => Windowing cal due) (wp_txn (fun out s' hr => ?_)
    (fun _ => ⟨⟨h.targets, honoursWindow_of_positions rfl⟩, h.targets⟩) fun _ => ⟨h.targets, h.targets⟩) fun out t ht => ?_
  · have hnext := h.keepsRows (ExitCall.close hr).keepsRows
    exact ⟨⟨hnext.targets, fun _ _ _ hl => nomatch hl⟩, hnext⟩
  · split
    · exact ht
    split
    · exact wp_then (windowing_markUnresolved ht nofun) fun _ _ hu => hu
    · exact ht

theorem windowing_settlePosition {ripe : Date} {pos : Position} {guard : Option Evidence} {exits : List ExitRecord}
    (hr : i.ripeThrough cal = some ripe) (hpos : pos ∈ due) (h : Windowing cal due s) :
    wp (windowing cal cfg i) (settlePosition cal cfg guard i.closePrice ripe exits pos) (fun _ => Windowing cal due)
      (TargetsAreSessions cal) s := by
  refine wp_bind (wp_read ⟨h.targets, honoursWindow_of_positions rfl⟩
    (wp_bind (wp_ofOption (fun found hfound => ?_) fun _ => h.targets)) fun _ => ⟨h.targets, h.targets⟩)
  split
  · refine wp_bind (wp_ofOption (fun lastFf hl => ?_) fun _ => h.targets)
    split
    · rename_i hle
      refine wp_then (windowing_markUnresolved h fun hnot _ p hp hopen hid => ?_) fun _ _ hu => hu
      -- the row given up is the one whose window was searched
      have hsame := h.tied pos hpos p hp hid
      have htarget : p.targetExitSession = pos.targetExitSession := by rw [hsame]
      have hsym : p.symbol = pos.symbol := by rw [hsame]
      rw [← htarget] at hl hfound
      rw [← hsym] at hfound
      have hnone := findExit_none (h.targets p hp) hfound hl hle
      have hfinal : i.resolver.couldBeFinal cal lastFf = true := by
        by_contra hno
        rw [Bool.not_eq_true] at hno
        exact hnot ⟨p, hp, hopen, ripe, lastFf, hr, hl, hle, hno, hnone⟩
      refine ⟨lastFf, hl, fun d hd htd hdl => ⟨?_, hnone d hd htd hdl⟩⟩
      exact PricingResolver.couldBeFinal_of_le hd (Calendar.mem_of_addSessions hl) hdl hfinal
    · exact h
  split
  · exact windowing_settleAt h
  · refine wp_then (windowing_of_upkeep (calls_assessPosition _ _ _ _) h) fun v t ht => ?_
    split
    · exact windowing_settleAt ht
    · refine wp_bind (wp_ofOption (fun lastFf _ => ?_) fun _ => ht.targets)
      split
      · exact wp_then (windowing_markUnresolved ht nofun) fun _ _ hu => hu
      · exact ht

theorem windowing_phaseClose {ripe : Date} (hr : i.ripeThrough cal = some ripe) (h : TargetsAreSessions cal s) :
    wp (windowing cal cfg i) (phaseClose cal cfg i ripe) (fun _ => TargetsAreSessions cal) (TargetsAreSessions cal) s := by
  have hidle : ∀ {l : Call} {t : Store}, TargetsAreSessions cal t → (windowing cal cfg i).commit l t t :=
    fun ht => ⟨ht, honoursWindow_of_positions rfl⟩
  refine wp_tryCatch (wp_mono (fun _ _ h => h) (fun t ht => wp_read (hidle ht) ht fun _ => ⟨ht, ht⟩)
    (wp_then (I := fun _ => TargetsAreSessions cal) ?_ fun exits t ht => wp_mono (fun _ _ h => h) (fun _ h => h)
      (wp_forEach (fun _ => TargetsAreSessions cal) (fun x _ t ht => ?_) exits ht)))
  · refine wp_bind (wp_read (hidle h) ?_ fun _ => ⟨h, h⟩)
    refine wp_mono (fun _ t ht => ht.2.targets) (fun _ h => h) (wp_foldEach
      (fun rest _ t => (∀ pos ∈ rest, pos ∈ dueExits s ripe) ∧ Windowing cal (dueExits s ripe) t)
      (fun pos rest exits t ht => ?_) _ ⟨fun _ h => h, h, tied_dueExits s ripe⟩)
    exact wp_mono (fun _ _ hu => ⟨fun q hq => ht.1 q (List.mem_cons_of_mem _ hq), hu⟩) (fun _ h => h)
      (windowing_settlePosition hr (ht.1 pos List.mem_cons_self) ht.2)
  · exact wp_write ⟨ht, honoursWindow_of_positions rfl⟩ ht fun _ => ⟨ht, ht⟩

/-! ## Every run -/

theorem windowing_tick (h : TargetsAreSessions cal s) :
    wp (windowing cal cfg i) (tick cal cfg i) (fun _ => TargetsAreSessions cal) (TargetsAreSessions cal) s := by
  have upkeep : ∀ {q : Prog Call Store Unit} {t : Store}, Calls UpkeepCall q → TargetsAreSessions cal t →
      wp (windowing cal cfg i) q (fun _ => TargetsAreSessions cal) (TargetsAreSessions cal) t := by
    intro q t hq ht
    have hnil : Windowing cal [] t := ⟨ht, fun _ h => absurd h List.not_mem_nil⟩
    exact wp_mono (fun _ _ hu => hu.targets) (fun _ h => h) (windowing_of_upkeep hq hnil)
  refine wp_tick h fun ripe all cut hr _ _ => ?_
  have hopen : ∀ eps, Calls (EntryCall cal cfg (· = i)) (phaseOpen cal cfg i ripe eps) := calls_phaseOpen i ripe
  exact wp_tickPhases (windowing_of_entryCalls (hopen _) h) (fun t ht => upkeep (calls_phaseCorporateActions i) ht)
    (fun t ht => windowing_phaseClose hr ht) (fun t ht => upkeep (calls_phaseDividends i) ht)
    fun t ht => windowing_of_entryCalls (calls_entry (calls_phasePostClose i ripe _ all)) ht

/-- A cutover gives nothing up. -/
def jobWindowing (cal : Calendar) (cfg : V2Config) : Job → Contract Call Store
  | .tick i => windowing cal cfg i
  | .cutover _ =>
    { commit := fun _ _ s' => TargetsAreSessions cal s', mayFault := fun _ _ => True, atCrash := TargetsAreSessions cal }

theorem windowing_job (j : Job) (h : TargetsAreSessions cal s) :
    wp (jobWindowing cal cfg j) (j.prog cal cfg) (fun _ => TargetsAreSessions cal) (TargetsAreSessions cal) s := by
  cases j with
  | tick i => exact windowing_tick h
  | cutover c =>
    have hcalls : Calls (IntentCall cal cfg fun _ => False) (classifyAndCancelPendingAtCutover cal c) := calls_cutover c
    exact wp_of_keeps (keeps_mono (J := TargetsAreSessions cal) (H := fun _ _ t => TargetsAreSessions cal t) hcalls
      (fun _ _ => trivial) fun _ _ _ ht hc => ⟨ht.keepsRows (.of_eq hc.frame.1), ht.keepsRows (.of_eq hc.frame.1)⟩)
      (fun _ _ _ _ h => h) (fun _ _ h _ => h) h

/-- In every run of one service, cutovers between its ticks included, whatever call raises and wherever the process
crashes: a position is given up for want of bars only when every bar of its exit window could have been final and none
had a close, as long as no tick is premature. -/
theorem exit_window_honoured (cal : Calendar) (cfg : V2Config) (start : ℚ) {segs : List (Seg Job Call Store)}
    {s : Store} (h : Run (Job.prog cal cfg) (Store.init start) segs s)
    (hready : ∀ g ∈ segs, ∀ i, g.input = .tick i → ∀ e ∈ g.events, ¬ i.Premature cal cfg e.pre) :
    ∀ g ∈ segs, ∀ i, g.input = .tick i → ∀ e ∈ g.events, e.fault = .none →
      HonoursWindow cal cfg i e.lbl e.pre e.post := by
  have hrun := Run.invariant (jobWindowing cal cfg) (TargetsAreSessions cal) (fun _ _ => True)
    (fun _ hp => absurd hp List.not_mem_nil) (fun j t ht => ?_) (fun j t ht _ => windowing_job j ht) h
    fun g hg => ⟨trivial, fun e he => ?_⟩
  · intro g hg i hi e he hf
    have hkept := (hrun.2 g hg).2.2 e he hf
    rw [hi] at hkept
    exact hkept.2
  · cases j <;> exact ht
  · cases hj : g.input with
    | tick i => exact ⟨fun _ => hready g hg i hj e he, fun _ => trivial⟩
    | cutover c => exact ⟨fun _ => trivial, fun _ => trivial⟩

/-- A tick at `now` to which the provider has no close. -/
def bareTick (now : Instant) : TickInput := { sampleTick true now with closePrice := fun _ _ => none }

/-- The position of day 30 has its exit on day 44 and five more sessions, up to day 51. It is given up on day 52. -/
theorem exit_window_honoured_sample :
    let r := runAll (Job.prog (.weekdays 100) {}) [(.tick (sampleTick true (dayStart 29 + 80000)), []),
      (.tick (sampleTick true (dayStart 30 + 60000)), []), (.tick (bareTick (dayStart 52 + 60000)), [])]
      (Store.init 100000)
    (∃ p ∈ r.2.positions.rows, p.status = .exitUnresolved) ∧
      ∀ g ∈ r.1, ∀ i, g.input = .tick i → ∀ e ∈ g.events, e.fault = .none →
        HonoursWindow (.weekdays 100) {} i e.lbl e.pre e.post := by
  intro r
  refine ⟨by decide +kernel, exit_window_honoured (.weekdays 100) {} 100000 (runAll_sound _ _ _) ?_⟩
  rintro g hg i hi e he ⟨p, hp, -, ripe, lastFf, hr, hl, hle, hno, -⟩
  have htarget : ∀ g ∈ r.1, ∀ e ∈ g.events, ∀ p ∈ e.pre.positions.rows, p.targetExitSession = 44 := by decide +kernel
  rw [htarget g hg e he p hp] at hl
  have hlast : (Calendar.weekdays 100).addSessions 44 ({} : V2Config).exitFallforwardMaxSessions = some 51 := by
    decide +kernel
  obtain rfl := Option.some.inj (hl.symm.trans hlast)
  have hin := mem_runAll_input hg
  rw [hi] at hin
  simp only [List.map_cons, List.map_nil, List.mem_cons, Job.tick.injEq, List.not_mem_nil, or_false] at hin
  have hready : (∀ d, i.ripeThrough (.weekdays 100) = some d → d < 51) ∨
      i.resolver.couldBeFinal (.weekdays 100) 51 = true := by
    rcases hin with rfl | rfl | rfl
    · exact Or.inl fun d hd => by
        rw [show TickInput.ripeThrough _ _ = some 29 by decide +kernel] at hd
        exact Option.some.inj hd ▸ by decide
    · exact Or.inl fun d hd => by
        rw [show TickInput.ripeThrough _ _ = some 30 by decide +kernel] at hd
        exact Option.some.inj hd ▸ by decide
    · exact Or.inr (by decide +kernel)
  rcases hready with hearly | hfinal
  · exact absurd hle (Nat.not_le.2 (hearly ripe hr))
  · rw [hfinal] at hno
    cases hno

/-- A live tick on day 51, while that session is trading, gives the position up. -/
theorem exit_window_cut :
    let r := runAll (Job.prog (.weekdays 100) {}) [(.tick (sampleTick true (dayStart 29 + 80000)), []),
      (.tick (sampleTick true (dayStart 30 + 60000)), []), (.tick (bareTick (dayStart 51 + 60000)), [])]
      (Store.init 100000)
    ¬ ∀ g ∈ r.1, ∀ i, g.input = .tick i → ∀ e ∈ g.events, e.fault = .none →
      HonoursWindow (.weekdays 100) {} i e.lbl e.pre e.post := by
  intro r h
  have hbad : ∃ g ∈ r.1, g.input = .tick (bareTick (dayStart 51 + 60000)) ∧ ∃ e ∈ g.events, e.fault = .none ∧
      ∃ p ∈ e.pre.positions.rows, p.status = .open ∧ p.targetExitSession = 44 ∧
        e.lbl = .markExitUnresolved p.positionId .noBar ∧
        ∃ p' ∈ e.post.positions.rows, p'.positionId = p.positionId ∧ p'.status = .exitUnresolved :=
    ⟨r.1.get ⟨2, by decide +kernel⟩, List.get_mem _ _, rfl, by decide +kernel⟩
  obtain ⟨g, hg, hi, e, he, hf, p, hp, hopen, htarget, hl, hp'⟩ := hbad
  obtain ⟨lastFf, hlast, hwin⟩ := h g hg _ hi e he hf p hp hopen hl hp'
  rw [htarget] at hlast hwin
  have h51 : (Calendar.weekdays 100).addSessions 44 ({} : V2Config).exitFallforwardMaxSessions = some 51 := by
    decide +kernel
  obtain rfl := Option.some.inj (hlast.symm.trans h51)
  have hfinal := (hwin 51 (by decide +kernel) (by decide) (Nat.le_refl _)).1
  revert hfinal
  decide +kernel

end TalonX.V2
