import TalonX.Ops.StartLock

/-!
# Mutual exclusion of the start lock

An instance holds the lock when it believes so and the owner it recorded runs. A rename, a replace or an unlink takes
whatever file is at the lock path by then, not the one that was checked.

- `LockEffect`: what the calls of one instance do;
- `Orderly`: what a step finds at the path is what its instance checked, and no recorded owner comes back to life;
- `lock_mutual_exclusion`: every orderly run;
- `lock_shared`: three instances, the first breaks the fresh lock of the second, the third takes the free path.
-/

set_option autoImplicit false

namespace TalonX.Ops

open Transact

variable {ι : Type} [DecidableEq ι] {key : String} {pid : ι → ℕ} {s s' : LockFs ι} {l : LockCall ι} {o : Option ι}
  {i j : ι} {f : ℕ} {p : LockPayload ι}

/-! ## Effects -/

/-- The instance has created the file at the lock path and not written it yet. -/
structure Writing (o : Option ι) (f : ℕ) (s : LockFs ι) : Prop where
  path : s.lockPath = some f
  empty : (s.file f).content = none
  writer : (s.file f).writer = o

omit [DecidableEq ι] in
theorem Writing.unique {o' : Option ι} {f' : ℕ} (h : Writing o f s) (h' : Writing o' f' s) : o = o' := by
  have hf : f = f' := Option.some.inj (h.path.symm.trans h'.path)
  rw [← h.writer, hf, h'.writer]

omit [DecidableEq ι] in
theorem Writing.onDisk (h : Writing o f s) : s.onDisk = none := by
  rw [LockFs.onDisk, h.path]
  exact h.empty

/-- The payload carries a token that the instance drew. -/
structure Drawn (key : String) (o : Option ι) (p : LockPayload ι) : Prop where
  token : ∃ n i, o = some i ∧ p.ownerToken = some (i, n)
  ledger : p.ledgerKey = key

/-- The payload is the instance's own one, up to its owner. -/
def Owned (o : Option ι) (p : LockPayload ι) (s : LockFs ι) : Prop :=
  ∃ i q, o = some i ∧ s.held i = some q ∧ p.ownerToken = q.ownerToken ∧ p.ledgerKey = q.ledgerKey

/-- What an instance relies on at a call. -/
def lockAssert (key : String) (o : Option ι) : LockCall ι → LockFs ι → Prop
  | .write f p, s => Writing o f s ∧ Drawn key o p
  | .restore f _, s => Writing o f s
  | .rebindTime p, s => Owned o p s
  | .writeTmp p, s => Owned o p s
  | .replace p, s => Owned o p s
  | _, _ => True

/-- What the calls of one instance, or of the operating system, do. -/
inductive LockEffect (key : String) (pid : ι → ℕ) (o : Option ι) : LockCall ι → LockFs ι → LockFs ι → Prop
  | idle (l : LockCall ι) (s : LockFs ι) : LockEffect key pid o l s s
  | rename (s : LockFs ι) : LockEffect key pid o .rename s s.rename
  | create (i : ι) (s : LockFs ι) : o = some i → s.lockPath = none → LockEffect key pid o .create s (s.create i).2
  | write (i : ι) (f : ℕ) (p : LockPayload ι) (s : LockFs ι) : o = some i → Writing o f s → Drawn key o p →
      LockEffect key pid o (.write f p) s ((s.fill f p).believe i (some p))
  | restore (f : ℕ) (p : LockPayload ι) (s : LockFs ι) : Writing o f s →
      LockEffect key pid o (.restore f p) s (s.fill f p)
  | writeTmp (p : LockPayload ι) (s : LockFs ι) (tmp : ℕ → Option (LockPayload ι)) :
      LockEffect key pid o (.writeTmp p) s { s with tmp := tmp }
  | replace (i : ι) (p q : LockPayload ι) (s : LockFs ι) : o = some i → Owned o p s → s.tmp (pid i) = some q →
      LockEffect key pid o (.replace p) s ((s.replace (pid i) q).believe i (some p))
  | unlink (i : ι) (s : LockFs ι) : o = some i → LockEffect key pid o .unlink s (s.rename.believe i none)
  | drop (i : ι) (s : LockFs ι) : o = some i → LockEffect key pid o .drop s (s.believe i none)
  | procs (table : ProcTable) (s : LockFs ι) : LockEffect key pid o (.procs table) s { s with procs := table }

/-- What an instance believes, it drew a token for. -/
def BeliefsDrawn (key : String) (s : LockFs ι) : Prop := ∀ i p, s.held i = some p → Drawn key (some i) p

@[simp] theorem LockFs.held_believe_self (s : LockFs ι) (i : ι) (p : Option (LockPayload ι)) :
    (s.believe i p).held i = p := by
  show Function.update s.held i p i = p
  exact Function.update_self ..

theorem LockFs.held_believe_of_ne (s : LockFs ι) {i j : ι} (p : Option (LockPayload ι)) (h : j ≠ i) :
    (s.believe i p).held j = s.held j := by
  show Function.update s.held i p j = s.held j
  exact Function.update_of_ne h ..

theorem BeliefsDrawn.believe {q : Option (LockPayload ι)} (h : BeliefsDrawn key s) (hs : s'.held = s.held)
    (hq : ∀ p, q = some p → Drawn key (some i) p) : BeliefsDrawn key (s'.believe i q) := by
  intro j p hp
  by_cases hj : j = i
  · subst hj
    rw [LockFs.held_believe_self] at hp
    exact hq p hp
  · rw [LockFs.held_believe_of_ne _ _ hj, hs] at hp
    exact h j p hp

omit [DecidableEq ι] in
theorem Owned.drawn (ho : Owned o p s) (h : BeliefsDrawn key s) : Drawn key o p := by
  obtain ⟨i, q, rfl, hq, htok, hled⟩ := ho
  obtain ⟨⟨n, j, hj, hn⟩, hk⟩ := h i q hq
  exact ⟨⟨n, j, hj, htok.trans hn⟩, hled.trans hk⟩

theorem LockEffect.beliefsDrawn (h : LockEffect key pid o l s s') (hb : BeliefsDrawn key s) : BeliefsDrawn key s' := by
  cases h with
  | write i f p s ho _ hd =>
    refine hb.believe rfl fun q hq => ?_
    obtain rfl := Option.some.inj hq
    exact ho ▸ hd
  | replace i p q s ho hown _ =>
    refine hb.believe rfl fun r hr => ?_
    obtain rfl := Option.some.inj hr
    exact ho ▸ hown.drawn hb
  | unlink i s _ => exact hb.believe rfl nofun
  | drop i s _ => exact hb.believe rfl nofun
  | create i s _ hpath =>
    rw [LockFs.create_of_free hpath]
    exact hb
  | _ => exact hb

/-! ## The calls of an instance -/

/-- Every call of the program is one of the listed effects, and its first call relies on nothing. -/
abbrev LockCalls (key : String) (pid : ι → ℕ) (o : Option ι) {α : Type} (p : Prog (LockCall ι) (LockFs ι) α) : Prop :=
  p.Standalone (BeliefsDrawn key) (lockAssert key o) (LockEffect key pid o)

section Calls

variable {α : Type}

theorem lockCalls_read {g : LockFs ι → α} (h : ∀ s, lockAssert key o l s) : LockCalls key pid o (Prog.read l g) :=
  standalone_read (fun s _ => h s) fun s _ => .idle l s

theorem lockCalls_write {g : LockFs ι → LockFs ι} (h : ∀ s, lockAssert key o l s)
    (hg : ∀ s, BeliefsDrawn key s → LockEffect key pid o l s (g s)) : LockCalls key pid o (Prog.write l g) :=
  standalone_write (fun s _ => h s) fun s hs => ⟨(hg s hs).beliefsDrawn hs, hg s hs⟩

theorem lockCalls_unlinkClaim (a : Option α) :
    LockCalls key pid o (Prog.bind (Prog.write .unlinkClaim id) fun _ => a.elim Prog.raise Prog.ret) := by
  refine standalone_bind (lockCalls_write (fun _ => trivial) fun s _ => .idle _ s) fun _ => ?_
  cases a with
  | none => exact standalone_raise
  | some a => exact standalone_ret a

theorem lockCalls_readRaw : LockCalls key pid o (readRaw : Prog (LockCall ι) (LockFs ι) (RawLock ι)) := by
  refine standalone_bind (lockCalls_read fun _ => trivial) fun present => ?_
  split
  · exact standalone_tryCatch (lockCalls_read fun _ => trivial) (standalone_ret _)
  · exact standalone_ret _

theorem lockCalls_ownerState : LockCalls key pid o (ownerState key : Prog (LockCall ι) (LockFs ι) OwnerState) := by
  refine standalone_bind lockCalls_readRaw fun raw => ?_
  split
  · exact standalone_ret _
  · exact standalone_ret _
  · split
    · exact standalone_ret _
    · exact standalone_bind (lockCalls_read fun _ => trivial) fun _ => standalone_ret _

/-- A created file, with what its creator does next. -/
theorem lockCalls_create {k : Option (ℕ × (ι × ℕ)) → Prog (LockCall ι) (LockFs ι) α}
    (hk : ∀ r, Outline (BeliefsDrawn key) (lockAssert key (some i)) (LockEffect key pid (some i)) (k r))
    (hnone : (k none).Free (BeliefsDrawn key) (lockAssert key (some i)))
    (hsome : ∀ f n s, Writing (some i) f s → (k (some (f, (i, n)))).entry (lockAssert key (some i)) s) :
    LockCalls key pid (some i) ((Prog.txn .create fun s => some (s.create i)).bind k) := by
  refine ⟨outline_txn_bind (fun s _ => .idle _ s) (fun s r s' hs _ hr => ?_) hk, fun _ _ => trivial⟩
  obtain rfl : (s.create i).1 = r := congrArg Prod.fst (Option.some.inj hr)
  obtain rfl : (s.create i).2 = s' := congrArg Prod.snd (Option.some.inj hr)
  have heffect : LockEffect key pid (some i) .create s (s.create i).2 := by
    cases hpath : s.lockPath with
    | none => exact .create i s rfl hpath
    | some f => exact LockFs.create_of_taken hpath ▸ .idle _ s
  refine ⟨heffect.beliefsDrawn hs, heffect, ?_⟩
  cases hpath : s.lockPath with
  | none =>
    rw [LockFs.create_of_free hpath]
    exact hsome _ _ _ ⟨rfl, by simp, by simp⟩
  | some f =>
    rw [LockFs.create_of_taken hpath]
    exact hnone s hs

theorem lockCalls_restoreClaimed (p : LockPayload ι) : LockCalls key pid (some i) (restoreClaimed i p) := by
  have hend : LockCalls key pid (some i)
      (Prog.bind (Prog.write .unlinkClaim id) fun _ => (Prog.raise : Prog (LockCall ι) (LockFs ι) Bool)) :=
    lockCalls_unlinkClaim none
  refine lockCalls_create (fun r => ?_) hend.2 fun f n s hw => hw
  match r with
  | none => exact hend.1
  | some (f, token) =>
    refine outline_write_bind (fun s hs hw => ?_) hend.1
    have heffect : LockEffect key pid (some i) (.restore f p) s (s.fill f p) := .restore f p s hw
    exact ⟨heffect.beliefsDrawn hs, heffect, trivial⟩

theorem lockCalls_claimStaleForRemoval : LockCalls key pid (some i) (claimStaleForRemoval i) := by
  refine standalone_bind (standalone_tryCatch (standalone_txn (fun _ _ => trivial) (fun s _ => .idle _ s)
    fun s r s' hs hr => ?_) (standalone_ret _)) fun claimed => ?_
  · obtain ⟨rfl, rfl⟩ := Prod.mk.inj (Option.some.inj hr.symm)
    have heffect : LockEffect key pid (some i) _ s _ := .rename s
    exact ⟨heffect.beliefsDrawn hs, heffect⟩
  split
  · exact standalone_ret _
  refine standalone_bind (standalone_tryCatch (lockCalls_read fun _ => trivial) (standalone_ret _)) fun content => ?_
  split
  · refine standalone_bind (standalone_tryCatch (lockCalls_read fun _ => trivial) (standalone_ret _)) fun live => ?_
    split
    · exact lockCalls_restoreClaimed _
    · exact lockCalls_unlinkClaim (some true)
  · exact lockCalls_unlinkClaim (some true)

theorem lockCalls_createFresh {again : Prog (LockCall ι) (LockFs ι) Unit} (h : LockCalls key pid (some i) again) :
    LockCalls key pid (some i) (createFresh key (pid i) i again) := by
  refine standalone_bind (lockCalls_read fun _ => trivial) fun createTime => ?_
  refine lockCalls_create (fun r => ?_) h.2 fun f n s hw => ⟨hw, ⟨n, i, rfl, rfl⟩, rfl⟩
  match r with
  | none => exact h.1
  | some (f, token) =>
    refine outline_write fun s hs hA => ?_
    have heffect : LockEffect key pid (some i) (.write f ⟨some (pid i), createTime, key, some token⟩) s
        ((s.fill f _).believe i (some _)) := .write i f _ s rfl hA.1 hA.2
    exact ⟨heffect.beliefsDrawn hs, heffect⟩

theorem lockCalls_acquireAttempt (force breakStale : Bool) : ∀ n : ℕ,
    LockCalls key pid (some i) (acquireAttempt key (pid i) i force breakStale n)
  | 0 => standalone_raise
  | n + 1 => by
    have again := lockCalls_acquireAttempt force breakStale n
    refine standalone_bind lockCalls_ownerState fun state => ?_
    split
    · exact standalone_bind lockCalls_readRaw fun _ => standalone_raise
    · exact standalone_raise
    · split
      · refine standalone_bind lockCalls_claimStaleForRemoval fun claimed => ?_
        split
        · exact lockCalls_createFresh again
        · exact again
      · exact standalone_raise
    · exact lockCalls_createFresh again

theorem outline_rebindTo : Outline (BeliefsDrawn key) (lockAssert key (some i)) (LockEffect key pid (some i))
    (rebindTo (pid i) i p) := by
  refine outline_write_bind (fun s hs hA => ⟨hs, .writeTmp p s _, hA⟩) (outline_txn (fun s _ => .idle _ s)
    fun s r s' hs hA hr => ?_)
  obtain ⟨q, hq, heq⟩ := Option.map_eq_some_iff.1 hr
  obtain rfl := congrArg Prod.snd heq
  have heffect : LockEffect key pid (some i) (.replace p) s ((s.replace (pid i) q).believe i (some p)) :=
    .replace i p q s rfl hA hq
  exact ⟨heffect.beliefsDrawn hs, heffect⟩

theorem lockCalls_rebindOwner (newPid : ℕ) (createTime : Option ℚ) :
    LockCalls key pid (some i) (rebindOwner (pid i) i newPid createTime) := by
  refine ⟨outline_read_bind (fun s _ => .idle _ s) (fun s _ _ => ?_) fun own => ?_, fun _ _ => trivial⟩
  · cases hown : s.held i with
    | none => cases createTime <;> trivial
    | some q => cases createTime <;> exact ⟨i, q, rfl, hown, rfl, rfl⟩
  · match own, createTime with
    | none, _ => trivial
    | some q, some ct => exact outline_rebindTo
    | some q, none => exact outline_read_bind (fun s _ => .idle _ s) (fun s _ hA => hA) fun ct => outline_rebindTo

theorem lockCalls_release : LockCalls key pid (some i) (release i) := by
  have hdrop : LockCalls key pid (some i) (Prog.write .drop fun s : LockFs ι => s.believe i none) :=
    lockCalls_write (fun _ => trivial) fun s _ => .drop i s rfl
  refine standalone_bind (lockCalls_read fun _ => trivial) fun own => ?_
  split
  · exact standalone_ret _
  refine standalone_bind lockCalls_readRaw fun raw => ?_
  split
  · split
    · exact lockCalls_write (fun _ => trivial) fun s _ => .unlink i s rfl
    · exact hdrop
  · exact hdrop

theorem LockStarts.lockCalls {q : Prog (LockCall ι) (LockFs ι) Unit} (h : LockStarts key pid o q) :
    LockCalls key pid o q := by
  cases h with
  | acquire i force breakStale => exact lockCalls_acquireAttempt force breakStale 8
  | rebindOwner i newPid createTime => exact lockCalls_rebindOwner newPid createTime
  | release i => exact lockCalls_release
  | processes table => exact lockCalls_write (fun _ => trivial) fun s _ => .procs table s

end Calls

/-! ## Orderly runs -/

/-- What a destructive step finds at the lock path is what its instance checked: a renamed lock has an owner that is
gone, a replaced or unlinked lock carries the instance's own token. And no recorded owner comes back to life. -/
def Orderly (key : String) (pid : ι → ℕ) (o : Option ι) : LockCall ι → LockFs ι → Prop
  | .rename, s => s.lockPath.isSome → ∃ p, s.onDisk = some p ∧ (p.ledgerKey ≠ key ∨ p.alive s.procs = false)
  | .replace p, s => ∀ i q, o = some i → s.tmp (pid i) = some q →
    q = p ∧ ∃ c, s.onDisk = some c ∧ c.ownerToken = p.ownerToken
  | .unlink, s => ∀ i, o = some i → s.lockPath.isSome → ∃ c p, s.onDisk = some c ∧ s.held i = some p ∧
    c.ownerToken = p.ownerToken
  | .procs table, s => ∀ i p, s.held i = some p → p.alive table = true → p.alive s.procs = true
  | _, _ => True

/-- Every step of the run is orderly. -/
def orderlySteps (key : String) (pid : ι → ℕ) (S : Sys (Option ι) (LockCall ι) (LockFs ι)) :
    Move (Option ι) (LockCall ι) → Prop
  | .commit o l => Orderly key pid o l S.store
  | _ => True

/-- A held lock whose recorded owner runs is the one on disk. -/
def LockInv (s : LockFs ι) : Prop := ∀ i p, s.held i = some p → p.alive s.procs = true → s.onDisk = some p

/-- The instance believes that it holds the lock, and the owner it recorded runs. -/
def LockFs.Holds (s : LockFs ι) (i : ι) : Prop := ∃ p, s.held i = some p ∧ p.alive s.procs = true

omit [DecidableEq ι] in
theorem LockInv.exclusive (h : LockInv s) (hb : BeliefsDrawn key s) (hi : s.Holds i) (hj : s.Holds j) : i = j := by
  obtain ⟨p, hp, hpl⟩ := hi
  obtain ⟨q, hq, hql⟩ := hj
  have hpq : p = q := Option.some.inj ((h i p hp hpl).symm.trans (h j q hq hql))
  subst hpq
  obtain ⟨⟨n, i', hi', hn⟩, -⟩ := hb i p hp
  obtain ⟨⟨n', j', hj', hn'⟩, -⟩ := hb j p hq
  rw [Option.some.inj hi', Option.some.inj hj']
  exact congrArg Prod.fst (Option.some.inj (hn.symm.trans hn'))

/-- Another party's orderly step leaves a created file where it is. -/
theorem Writing.stable {o' : Option ι} (h : Writing o' f s) (he : LockEffect key pid o l s s')
    (ha : Orderly key pid o l s) (hne : o ≠ o') : Writing o' f s' := by
  have hsome : s.lockPath.isSome := by rw [h.path]; rfl
  cases he with
  | rename =>
    obtain ⟨p, hp, -⟩ := ha hsome
    rw [h.onDisk] at hp
    cases hp
  | create i _ _ hpath =>
    rw [h.path] at hpath
    cases hpath
  | write i g p _ _ hw _ => exact absurd (hw.unique h) hne
  | restore g p _ hw => exact absurd (hw.unique h) hne
  | replace i p q _ ho _ hq =>
    obtain ⟨-, c, hc, -⟩ := ha i q ho hq
    rw [h.onDisk] at hc
    cases hc
  | unlink i _ ho =>
    obtain ⟨c, p, hc, -⟩ := ha i ho hsome
    rw [h.onDisk] at hc
    cases hc
  | _ => exact ⟨h.path, h.empty, h.writer⟩

/-- Beliefs are changed by their instance only. -/
theorem LockEffect.held_of_ne (he : LockEffect key pid o l s s') (hne : o ≠ some j) : s'.held j = s.held j := by
  have hj : ∀ {i : ι}, o = some i → j ≠ i := fun ho h => hne (h ▸ ho)
  cases he with
  | write i f p _ ho => exact LockFs.held_believe_of_ne _ _ (hj ho)
  | replace i p q _ ho => exact LockFs.held_believe_of_ne _ _ (hj ho)
  | unlink i _ ho => exact LockFs.held_believe_of_ne _ _ (hj ho)
  | drop i _ ho => exact LockFs.held_believe_of_ne _ _ (hj ho)
  | create i _ _ hpath => rw [LockFs.create_of_free hpath]
  | _ => rfl

theorem Owned.stable {o' : Option ι} (h : Owned o' p s) (he : LockEffect key pid o l s s') (hne : o ≠ o') :
    Owned o' p s' := by
  obtain ⟨i, q, rfl, hq, heq⟩ := h
  exact ⟨i, q, rfl, (he.held_of_ne hne).trans hq, heq⟩

theorem stable_lockAssert : StableBy (BeliefsDrawn key) (lockAssert key) (LockEffect key pid)
    (orderlySteps key pid) := by
  intro S o o' l s' q hne _ ha _ he hq
  cases q with
  | ret a => trivial
  | raise => trivial
  | call l' post next fault =>
    cases l' with
    | write f p => exact ⟨Writing.stable hq.1 he ha hne, hq.2⟩
    | restore f p => exact Writing.stable hq he ha hne
    | rebindTime p => exact Owned.stable hq he hne
    | writeTmp p => exact Owned.stable hq he hne
    | replace p => exact Owned.stable hq he hne
    | _ => trivial

/-- Without a holder at work, nobody else's lock can be lost. -/
theorem LockInv.believe {q : Option (LockPayload ι)} (hs : s'.held = s.held)
    (hq : ∀ p, q = some p → s'.onDisk = some p) (hother : ∀ j p, j ≠ i → s.held j = some p →
      p.alive s'.procs = true → s'.onDisk = some p) : LockInv (s'.believe i q) := by
  intro j p hp hpl
  by_cases hj : j = i
  · subst hj
    rw [LockFs.held_believe_self] at hp
    exact hq p hp
  · rw [LockFs.held_believe_of_ne _ _ hj, hs] at hp
    exact hother j p hj hp hpl

/-- An orderly step keeps every held lock on disk. -/
theorem LockEffect.lockInv (he : LockEffect key pid o l s s') (ha : Orderly key pid o l s) (hb : BeliefsDrawn key s)
    (h : LockInv s) : LockInv s' := by
  -- whoever holds the lock on disk has its token
  have howner : ∀ {c j p}, s.onDisk = some c → s.held j = some p → p.alive s.procs = true → c = p :=
    fun hc hp hpl => Option.some.inj (hc.symm.trans (h _ _ hp hpl))
  have hsame : ∀ {i j : ι} {p q}, s.held i = some p → s.held j = some q → p.ownerToken = q.ownerToken → i = j := by
    intro i j p q hp hq htok
    obtain ⟨⟨n, i', hi', hn⟩, -⟩ := hb i p hp
    obtain ⟨⟨n', j', hj', hn'⟩, -⟩ := hb j q hq
    rw [hn, hn'] at htok
    rw [Option.some.inj hi', Option.some.inj hj']
    exact congrArg Prod.fst (Option.some.inj htok)
  have hsomePath : ∀ {c}, s.onDisk = some c → s.lockPath.isSome := by
    intro c hc
    cases hpath : s.lockPath with
    | none => rw [LockFs.onDisk, hpath] at hc; cases hc
    | some f => rfl
  cases he with
  | rename =>
    intro j p hp hpl
    have hdisk : s.onDisk = some p := h j p hp hpl
    obtain ⟨c, hc, hgone⟩ := ha (hsomePath hdisk)
    obtain rfl := howner hc hp hpl
    rcases hgone with hkey | hdead
    · exact absurd (hb j c hp).ledger hkey
    · exact absurd (hdead.symm.trans hpl) Bool.false_ne_true
  | create i _ _ hpath =>
    intro j p hp hpl
    rw [LockFs.create_of_free hpath] at hp hpl
    have hdisk : s.onDisk = some p := h j p hp hpl
    rw [LockFs.onDisk, hpath] at hdisk
    cases hdisk
  | write i f p _ _ hw _ =>
    refine LockInv.believe (s := s) rfl (fun q hq => ?_) fun j q _ hq hql => ?_
    · obtain rfl := Option.some.inj hq
      simp [LockFs.onDisk, LockFs.fill, hw.path]
    · have hdisk : s.onDisk = some q := h j q hq hql
      rw [hw.onDisk] at hdisk
      cases hdisk
  | restore f p _ hw =>
    intro j q hq hql
    have hdisk : s.onDisk = some q := h j q hq hql
    rw [hw.onDisk] at hdisk
    cases hdisk
  | replace i p q _ ho hown hq =>
    obtain ⟨rfl, c, hc, htok⟩ := ha i q ho hq
    obtain ⟨i', r, hi', hr, hrtok, -⟩ := hown
    obtain rfl : i' = i := Option.some.inj (hi'.symm.trans ho)
    refine LockInv.believe (s := s) rfl (fun p hp => ?_) fun j p hj hp hpl => ?_
    · obtain rfl := Option.some.inj hp
      simp [LockFs.onDisk, LockFs.replace]
    · obtain rfl := howner hc hp hpl
      exact absurd (hsame hp hr (htok.trans hrtok)) hj
  | unlink i _ ho =>
    refine LockInv.believe (s := s) rfl nofun fun j p hj hp hpl => ?_
    have hdisk : s.onDisk = some p := h j p hp hpl
    obtain ⟨c, r, hc, hr, htok⟩ := ha i ho (hsomePath hdisk)
    obtain rfl := howner hc hp hpl
    exact absurd (hsame hp hr htok) hj
  | drop i => exact LockInv.believe (s := s) rfl nofun fun j p _ hp hpl => h j p hp hpl
  | procs table => exact fun j p hp hpl => h j p hp (ha j p hp hpl)
  | _ => exact h

/-- From an absent or an old lock file, in every orderly run of any number of instances: no two instances whose recorded
owners run both believe that they hold the lock. -/
theorem lock_mutual_exclusion (key : String) (pid : ι → ℕ) (old : Option (LockPayload ι)) (procs : ProcTable)
    {S : Sys (Option ι) (LockCall ι) (LockFs ι)}
    (h : Reach (LockStarts key pid) (orderlySteps key pid) (Sys.idle (LockFs.init old procs)) S) (i j : ι)
    (hi : S.store.Holds i) (hj : S.store.Holds j) : i = j := by
  have hnone : ∀ i p, (LockFs.init old procs).held i ≠ some p := fun _ _ hp => nomatch hp
  have hinv := Reach.invariantBy (J := LockInv) (fun o q hq => hq.lockCalls (o := o)) stable_lockAssert
    (fun S o l s' hb ha he hJ => he.lockInv ha hb hJ) (.idle fun i p hp => absurd hp (hnone i p))
    (fun i p hp => absurd hp (hnone i p)) h
  exact hinv.2.exclusive hinv.1.inv hi hj

/-! ## A sample -/

/-- A lock whose owner, process 99, is gone. -/
def staleLock : LockPayload ℕ := ⟨some 99, some 0, "v2.db", none⟩

/-- Every process but 99 runs. -/
def sampleProcs : ProcTable := fun pid => if pid = 99 then none else some (some 5)

/-- The instance 0 breaks the stale lock. -/
theorem lock_mutual_exclusion_sample :
    ∃ S : Sys (Option ℕ) (LockCall ℕ) (LockFs ℕ), Reach (LockStarts "v2.db" id) (orderlySteps "v2.db" id)
      (Sys.idle (LockFs.init (some staleLock) sampleProcs)) S ∧
      S.store.Holds 0 ∧ ∀ i j, S.store.Holds i → S.store.Holds j → i = j := by
  have h : Reach (LockStarts "v2.db" id) (orderlySteps "v2.db" id)
    (Sys.idle (LockFs.init (some staleLock) sampleProcs)) _ := .refl
  have h := h.step (.start (i := some 0) rfl (.acquire 0 false true)) trivial
  have h := h.commitAs (i := some 0) (l := .exists) rfl trivial
  have h := h.commitAs (i := some 0) (l := .read) rfl trivial
  have h := h.commitAs (i := some 0) (l := .alive) rfl trivial
  have h := h.commitAs (i := some 0) (l := .rename) rfl fun _ => ⟨staleLock, rfl, Or.inr rfl⟩
  have h := h.commitAs (i := some 0) (l := .read) rfl trivial
  have h := h.commitAs (i := some 0) (l := .alive) rfl trivial
  have h := h.commitAs (i := some 0) (l := .unlinkClaim) rfl trivial
  have h := h.commitAs (i := some 0) (l := .createTime) rfl trivial
  have h := h.commitAs (i := some 0) (l := .create) rfl trivial
  have h := h.commitAs (i := some 0) (l := .write 1 ⟨some 0, some 5, "v2.db", some (0, 0)⟩) rfl trivial
  exact ⟨_, h, ⟨_, rfl, by decide +kernel⟩, fun i j hi hj => lock_mutual_exclusion "v2.db" id _ _ h i j hi hj⟩

/-- The instances 0 and 1 find the stale lock. 1 breaks it and acquires. 0 then breaks the fresh lock of 1; before 0 has
put it back, 2 finds the path free and acquires too. -/
theorem lock_shared :
    ¬ ∀ S : Sys (Option ℕ) (LockCall ℕ) (LockFs ℕ), Reach (LockStarts "v2.db" id) (fun _ _ => True)
      (Sys.idle (LockFs.init (some staleLock) sampleProcs)) S →
      ∀ i j, S.store.Holds i → S.store.Holds j → i = j := by
  intro h
  have hr : Reach (LockStarts "v2.db" id) (fun _ _ => True)
    (Sys.idle (LockFs.init (some staleLock) sampleProcs)) _ := .refl
  have hr := (hr.start (i := some 0) rfl (.acquire 0 false true)).commits [some 0, some 0, some 0]
  have hr := (hr.start (i := some 1) rfl (.acquire 1 false true)).commits (List.replicate 10 (some 1))
  have hr := (hr.commit (some 0)).start (i := some 2) rfl (.acquire 2 false true)
  have hr := hr.commits (List.replicate 4 (some 2))
  have hboth := h _ hr 1 2 ⟨_, rfl, by decide +kernel⟩ ⟨_, rfl, by decide +kernel⟩
  cases hboth

end TalonX.Ops
