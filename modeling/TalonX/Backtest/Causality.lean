import TalonX.Backtest.Replays

/-!
# A replay does not look ahead

- `Recorded`: records are appended, and those that are new have times of a kind;
- `Move.recorded`: a move records what happens at its own instant;
- `minutes_split`: cutting the data cuts the minutes;
- `replay_causal`: what a replay has recorded by a time is what it records when the data end there.
-/

set_option autoImplicit false

namespace TalonX.Backtest

open Quant Transact

/-! ## Appending records -/

section Appended

variable {α : Type} {time : α → Timestamp} {kind : Timestamp → Prop} {l l' l'' : List α}

/-- `l'` is `l` with records after it whose times are of a kind. -/
def Appended (time : α → Timestamp) (kind : Timestamp → Prop) (l l' : List α) : Prop :=
  ∃ new, l' = l ++ new ∧ ∀ a ∈ new, kind (time a)

theorem Appended.refl : Appended time kind l l := ⟨[], by simp, by simp⟩

theorem Appended.trans (h : Appended time kind l l') (h' : Appended time kind l' l'') : Appended time kind l l'' := by
  obtain ⟨new, rfl, hnew⟩ := h
  obtain ⟨new', rfl, hnew'⟩ := h'
  refine ⟨new ++ new', by simp, fun a ha => ?_⟩
  exact (List.mem_append.1 ha).elim (hnew a) (hnew' a)

theorem Appended.concat {a : α} (h : kind (time a)) : Appended time kind l (l ++ [a]) :=
  ⟨[a], rfl, by simpa using h⟩

theorem Appended.mono {kind' : Timestamp → Prop} (h : Appended time kind l l') (hkind : ∀ t, kind t → kind' t) :
    Appended time kind' l l' := by
  obtain ⟨new, rfl, hnew⟩ := h
  exact ⟨new, rfl, fun a ha => hkind _ (hnew a ha)⟩

/-- What came first is what is early. -/
theorem Appended.filter {cut : Timestamp} (h : Appended time (· ≤ cut) [] l) (h' : Appended time (cut < ·) l l') :
    l = l'.filter fun a => time a ≤ cut := by
  obtain ⟨new, rfl, hnew⟩ := h
  obtain ⟨new', rfl, hnew'⟩ := h'
  rw [List.filter_append, List.filter_eq_self.2 fun a ha => by simpa using hnew a ha,
    List.filter_eq_nil_iff.2 fun a ha => by simpa using hnew' a ha, List.append_nil]

end Appended

/-- All that an engine keeps for the result. -/
structure Recorded (kind : Timestamp → Prop) (e e' : BacktestEngine) : Prop where
  trades : Appended Trade.exitTimestamp kind e.trades e'.trades
  rejections : Appended RejectionRecord.timestamp kind e.rejections e'.rejections
  signalLog : Appended SignalLogRow.timestamp kind e.signalLog e'.signalLog
  published : Appended Publication.timestamp kind e.published e'.published

theorem Recorded.refl {kind : Timestamp → Prop} (e : BacktestEngine) : Recorded kind e e :=
  ⟨.refl, .refl, .refl, .refl⟩

theorem Recorded.trans {kind : Timestamp → Prop} {e e' e'' : BacktestEngine} (h : Recorded kind e e')
    (h' : Recorded kind e' e'') : Recorded kind e e'' :=
  ⟨h.trades.trans h'.trades, h.rejections.trans h'.rejections, h.signalLog.trans h'.signalLog,
    h.published.trans h'.published⟩

theorem Recorded.mono {kind kind' : Timestamp → Prop} {e e' : BacktestEngine} (h : Recorded kind e e')
    (hkind : ∀ t, kind t → kind' t) : Recorded kind' e e' :=
  ⟨h.trades.mono hkind, h.rejections.mono hkind, h.signalLog.mono hkind, h.published.mono hkind⟩

section Causality

variable {config : BacktestConfig} {eastern : EasternClock} {indicators : Indicators} {warmup df : DataFrame}
  {now : Timestamp} {Bar : Symbol → HistoricalRow → Prop} {e : BacktestEngine}

theorem Move.recorded {t t' : Turn} (h : Move config eastern now Bar t t') :
    Recorded (· = now) t.engine t'.engine := by
  cases h with
  | tick | feed | reorder | markDate | entrySkipped | touch => exact ⟨.refl, .refl, .refl, .refl⟩
  | volatility | refuse | exitMissed | entryRefused => exact ⟨.refl, .concat rfl, .refl, .refl⟩
  | evaluate hlog =>
    refine ⟨.refl, ⟨_, rfl, fun r hr => ?_⟩, ⟨_, rfl, fun r hr => (hlog r hr).2⟩, .refl⟩
    obtain ⟨a, -, rfl⟩ := List.mem_map.1 hr
    rfl
  | publish =>
    rw [BacktestEngine.publish_eq]
    refine ⟨.refl, ?_, .refl, .concat rfl⟩
    dsimp only
    split_ifs
    · exact .concat rfl
    · exact .refl
  | @enter e _ _ _ x _ _ fill =>
    obtain ⟨paths, reasons, heq⟩ := BacktestEngine.countGeometry_eq
      { e with pendingEntry := Function.update e.pendingEntry x none } fill
    rw [heq]
    exact ⟨.refl, .refl, .refl, .refl⟩
  | exit =>
    rw [BacktestEngine.settle_some]
    exact ⟨.concat rfl, .refl, .refl, .refl⟩
  | hit =>
    rw [BacktestEngine.settle_some]
    exact ⟨.concat rfl, .refl, .refl, .refl⟩
  | eodClose =>
    rw [BacktestEngine.settle_some]
    exact ⟨.concat rfl, .refl, .refl, .refl⟩

theorem recorded_steps {t t' : Turn} (h : Steps config eastern now Bar t t') :
    Recorded (· = now) t.engine t'.engine := by
  induction h with
  | refl => exact .refl _
  | tail _ hmove ih => exact ih.trans hmove.recorded

/-- Minutes of one kind record what happens at times of that kind. -/
theorem recorded_minutes {kind : Timestamp → Prop} (ks : List Timestamp) (hks : ∀ k ∈ ks, kind k) (hkeyed : Keyed e) :
    let e' := (ks.map fun k => (k, rowsAt df k)).foldl (fun e g => e.processGroup config eastern indicators g) e
    Recorded kind e e' ∧ Keyed e' := by
  induction ks generalizing e with
  | nil => exact ⟨.refl _, hkeyed⟩
  | cons k ks ih =>
    obtain ⟨T, hsteps, -, hengine, -⟩ := steps_processGroup config eastern (BarAt df k) indicators (b := []) (d := [])
      (k, rowsAt df k)
      (fun bar hbar => by
        obtain ⟨hmem, htime⟩ := mem_rowsAt.1 hbar
        exact ⟨⟨bar, hmem, rfl, rfl, htime⟩, htime⟩) hkeyed
    have hone : Recorded kind e (e.processGroup config eastern indicators (k, rowsAt df k)) := by
      rw [← hengine]
      exact (recorded_steps hsteps).mono fun t ht => ht ▸ hks k List.mem_cons_self
    have hkeyed' := keyed_of_steps hsteps hkeyed
    rw [hengine] at hkeyed'
    obtain ⟨hrest, hend⟩ := ih (fun j hj => hks j (List.mem_cons_of_mem k hj)) hkeyed'
    exact ⟨hone.trans hrest, hend⟩

/-! ## Cutting the data -/

/-- The bars up to a time. -/
def upTo (cut : Timestamp) (df : DataFrame) : DataFrame := df.filter fun bar => bar.2.timestamp ≤ cut

theorem sortValues_upTo (cut : Timestamp) :
    BacktestEngine.sortValues (upTo cut df) = upTo cut (BacktestEngine.sortValues df) := by
  refine (filter_insertionSort (fun a b => ?_) (fun a b c => ?_) _ df).symm
  · exact lexBy_total _ (fun a b => le_total a.1 b.1) a b
  · exact lexBy_trans _ fun a b c => le_trans (a := a.1)

theorem rowsAt_upTo {cut k : Timestamp} (hk : k ≤ cut) : rowsAt (upTo cut df) k = rowsAt df k := by
  rw [rowsAt, rowsAt, sortValues_upTo, under, under, upTo, List.filter_filter]
  refine List.filter_congr fun bar _ => ?_
  by_cases h : bar.2.timestamp = k
  · simp [h, hk]
  · simp [h]

variable (df) in
/-- Earlier minutes are those of the bars up to `cut`. -/
theorem minutes_split (cut : Timestamp) :
    ∃ early late : List Timestamp, (∀ k ∈ early, k ≤ cut) ∧ (∀ k ∈ late, cut < k) ∧
      BacktestEngine.minutes (upTo cut df) = early.map (fun k => (k, rowsAt (upTo cut df) k)) ∧
      BacktestEngine.minutes df =
        early.map (fun k => (k, rowsAt (upTo cut df) k)) ++ late.map fun k => (k, rowsAt df k) := by
  obtain ⟨ks, hsorted, hmem, heq⟩ := exists_minutes df
  obtain ⟨early, hsorted', hmem', heq'⟩ := exists_minutes (upTo cut df)
  have hle : ∀ k ∈ early, k ≤ cut := fun k hk => by
    obtain ⟨bar, hbar, rfl⟩ := List.mem_map.1 ((hmem' k).1 hk)
    simpa using (List.mem_filter.1 hbar).2
  have hlate : ∀ k ∈ ks.filter (cut < ·), cut < k := fun k hk => by simpa using (List.mem_filter.1 hk).2
  have hks : ks = early ++ ks.filter (cut < ·) := by
    refine List.Perm.eq_of_pairwise (fun a b _ _ hab hba => absurd hab hba.asymm) hsorted ?_ ?_
    · exact List.pairwise_append.2 ⟨hsorted', hsorted.filter _, fun a ha b hb => (hle a ha).trans_lt (hlate b hb)⟩
    · refine (List.perm_ext_iff_of_nodup (hsorted.imp fun h => h.ne) ?_).2 fun k => ?_
      · exact List.nodup_append.2 ⟨hsorted'.imp fun h => h.ne, (hsorted.filter _).imp fun h => h.ne,
          fun a ha b hb => ((hle a ha).trans_lt (hlate b hb)).ne⟩
      · simp only [hmem, List.mem_append, hmem', List.mem_filter, times, upTo, List.mem_map]
        constructor
        · rintro ⟨bar, hbar, rfl⟩
          rcases le_or_gt bar.2.timestamp cut with h | h
          · exact .inl ⟨bar, by simpa using ⟨hbar, h⟩, rfl⟩
          · exact .inr ⟨⟨bar, hbar, rfl⟩, by simpa using h⟩
        · rintro (⟨bar, hbar, rfl⟩ | ⟨h, -⟩)
          · exact ⟨bar, hbar.1, rfl⟩
          · exact h
  refine ⟨early, ks.filter (cut < ·), hle, hlate, heq', ?_⟩
  rw [heq]
  conv_lhs => rw [hks]
  rw [List.map_append]
  congr 1
  exact List.map_congr_left fun k hk => by rw [rowsAt_upTo (hle k hk)]

/-- What a replay has recorded by a time is what it records when the data end there: later bars change none of it. -/
theorem replay_causal (cut : Timestamp) :
    let early := BacktestEngine.replay config eastern indicators warmup (upTo cut df)
    let whole := BacktestEngine.replay config eastern indicators warmup df
    early.trades = whole.trades.filter (·.exitTimestamp ≤ cut) ∧
      early.rejections = whole.rejections.filter (·.timestamp ≤ cut) ∧
      early.signalLog = whole.signalLog.filter (·.timestamp ≤ cut) ∧
      early.published = whole.published.filter (·.timestamp ≤ cut) := by
  intro early whole
  obtain ⟨ks, late, hks, hlate, heq, heq'⟩ := minutes_split df cut
  have hearly : early = (ks.map fun k => (k, rowsAt (upTo cut df) k)).foldl
      (fun e g => e.processGroup config eastern indicators g) (warmed config eastern warmup) := by
    rw [← heq]
    rfl
  have hwhole : whole = (late.map fun k => (k, rowsAt df k)).foldl
      (fun e g => e.processGroup config eastern indicators g) early := by
    rw [hearly, ← List.foldl_append, ← heq']
    rfl
  obtain ⟨hfirst, hkeyed⟩ : Recorded (· ≤ cut) (warmed config eastern warmup) early ∧ Keyed early := by
    rw [hearly]
    exact recorded_minutes ks hks keyed_warmed
  have hrest : Recorded (cut < ·) early whole := by
    rw [hwhole]
    exact (recorded_minutes late hlate hkeyed).1
  obtain ⟨market, n, hnone⟩ := warmed_eq config eastern warmup
  rw [hnone] at hfirst
  exact ⟨hfirst.trades.filter hrest.trades, hfirst.rejections.filter hrest.rejections,
    hfirst.signalLog.filter hrest.signalLog, hfirst.published.filter hrest.published⟩

end Causality

end TalonX.Backtest
