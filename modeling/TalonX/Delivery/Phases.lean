import TalonX.Delivery.Pipeline

/-!
# The protocol of the delivery processes

- `Stage`, `Phase`: what a process holds: the rows of its last selection, and the claim that it has not settled;
- `Turn i`: the calls that process `i` makes, with the stages before and after;
- `starts_follow`: every program that a process may start makes these calls only.
-/

set_option autoImplicit false

namespace TalonX.Delivery

open Transact V2 Outbox

variable {ι : Type}

/-- How far a process has got with the rows that it claimed as `a`. -/
inductive Stage (ι : Type)
  | idle
  | claimed (a : AttemptId ι) (rows : List (DeliveryRow ι))
  | called (a : AttemptId ι) (rows : List (DeliveryRow ι))
  | answered (a : AttemptId ι) (rows : List (DeliveryRow ι)) (asDigest : Bool) (res : SendOutcome)

structure Phase (ι : Type) where
  seen : List (DeliveryRow ι)
  stage : Stage ι

/-- The rows without the one with this id. -/
def dropRow (deliveryId : DeliveryId) (rows : List (DeliveryRow ι)) : List (DeliveryRow ι) :=
  rows.filter (·.deliveryId ≠ deliveryId)

theorem mem_dropRow {deliveryId : DeliveryId} {rows : List (DeliveryRow ι)} {x : DeliveryRow ι} :
    x ∈ dropRow deliveryId rows ↔ x ∈ rows ∧ x.deliveryId ≠ deliveryId := by
  simp [dropRow]

/-- The call changes neither rows nor the history of the transport. -/
structure Outbox.Aside (s s' : Outbox ι) : Prop where
  rows : s'.rows = s.rows
  wire : s'.wire = s.wire
  digests : s'.digests = s.digests
  acknowledged : s'.acknowledged = s.acknowledged

theorem Outbox.Aside.refl (s : Outbox ι) : s.Aside s := ⟨rfl, rfl, rfl, rfl⟩

variable [DecidableEq ι]

inductive Turn (i : ι) : Phase ι → Label ι → Outbox ι → Outbox ι → Phase ι → Prop
  | aside {p l s s'} (h : s.Aside s') : Turn i p l s s' p
  | select {p s} {rows : List (DeliveryRow ι)} (hmem : ∀ x ∈ rows, x ∈ s.rows.rows)
      (hnodup : (rows.map (·.deliveryId)).Nodup) : Turn i p .select s s ⟨rows, .idle⟩
  | recover {p s ids} : Turn i p (.recover ids) s (s.recover ids) p
  | defer {p s k t n} : Turn i p (.defer k) s (s.defer k t n) p
  | retire {p s k state reason} (hstate : state = .expired ∨ state = .suppressed) :
      Turn i p (.retire none k) s (s.retire k state reason) p
  | retireClaimed {seen s a rows state reason} {x : DeliveryRow ι} (hx : x ∈ rows)
      (hstate : state = .expired ∨ state = .suppressed) :
      Turn i ⟨seen, .claimed a rows⟩ (.retire (some a) x.deliveryId) s (s.retire x.deliveryId state reason)
        ⟨seen, .claimed a (dropRow x.deliveryId rows)⟩
  | insert {p s s' k m d t} (h : Outbox.insert k m d t s = some s') : Turn i p (.insert k m) s s' p
  | refresh {p s k m} : Turn i p (.refresh k m) s (s.refresh k m) p
  | approveUpdate {p s k m prev} : Turn i p (.approveUpdate k m) s (s.approveUpdate k m prev) p
  | reopen {p s k m} : Turn i p (.reopen k m) s (s.reopen k m) p
  | claim {seen stage s row a now} (ha : a.owner = i) (hrow : row ∈ seen) (hw : winsClaim row.deliveryId now s) :
      Turn i ⟨seen, stage⟩ (.claim row a now) s (s.claimForSend row.deliveryId a now) ⟨seen, .claimed a [row]⟩
  | claimBatch {seen stage s rows a now} (ha : a.owner = i) (hrows : ∀ x ∈ rows, x ∈ seen)
      (hnodup : (rows.map (·.deliveryId)).Nodup) :
      Turn i ⟨seen, stage⟩ (.claimBatch rows a) s (s.claimDigestBatch (rows.map (·.deliveryId)) a now)
        ⟨seen, .claimed a (s.batchWon rows)⟩
  | release {seen s a rows} {x : DeliveryRow ι} (hx : x ∈ rows) :
      Turn i ⟨seen, .claimed a rows⟩ (.release x.deliveryId a) s (s.releaseClaim x.deliveryId a)
        ⟨seen, .claimed a (dropRow x.deliveryId rows)⟩
  | request {seen s a rows rows' shown} (hperm : rows'.Perm rows) :
      Turn i ⟨seen, .claimed a rows⟩ (.request rows' shown a) s (s.request rows' shown a) ⟨seen, .called a rows'⟩
  | response {seen s a rows asDigest} :
      Turn i ⟨seen, .called a rows⟩ (.response a) s (s.respond rows asDigest a)
        ⟨seen, .answered a rows asDigest (s.env.answer s.consulted)⟩
  | markSent {seen s a row now} {res : SenderResult} (hok : res.ok = true) :
      Turn i ⟨seen, .answered a [row] false (.result res)⟩ (.markSent row.deliveryId a) s
        (s.markSent row.deliveryId res.messageId now) ⟨seen, .idle⟩
  | markDigestSent {seen s a rows now} {res : SenderResult} (hok : res.ok = true) :
      Turn i ⟨seen, .answered a rows true (.result res)⟩ (.markDigestSent (rows.map (·.deliveryId)) a) s
        (s.markDigestSent (rows.map (·.deliveryId)) a res.messageId now) ⟨seen, .idle⟩
  | markAmbiguous {seen s a rows asDigest res detail} {x : DeliveryRow ι} (hx : x ∈ rows)
      (hres : res.acknowledged = none) :
      Turn i ⟨seen, .answered a rows asDigest res⟩ (.markAmbiguous x.deliveryId a) s
        (s.markAmbiguous x.deliveryId detail) ⟨seen, .answered a (dropRow x.deliveryId rows) asDigest res⟩
  | markFailed {seen s a rows asDigest res n error retryAfter permanent now} {x : DeliveryRow ι} (hx : x ∈ rows)
      (hres : res.rejected = true) :
      Turn i ⟨seen, .answered a rows asDigest res⟩ (.markFailed x.deliveryId a) s
        (s.markFailed x.deliveryId n error retryAfter permanent now)
        ⟨seen, .answered a (dropRow x.deliveryId rows) asDigest res⟩

/-! ## Calls that only look -/

section Rules

variable {i : ι} {p : Phase ι} {α β : Type}

/-- A look at the store or at the outside world. -/
theorem follows_look {l : Label ι} {post : Outbox ι → Outbox ι} {g : Outbox ι → α} {Q : α → Phase ι → Prop}
    (hpost : ∀ s : Outbox ι, s.Aside (post s)) (hQ : ∀ a, Q a p) :
    Follows (Turn i) p (.call l post (fun s => .ret (g s)) .raise : Job ι α) Q :=
  ⟨fun s => ⟨p, .aside (hpost s), hQ (g s)⟩, trivial⟩

omit [DecidableEq ι] in
theorem aside_consult (s : Outbox ι) : s.Aside s.consult := ⟨rfl, rfl, rfl, rfl⟩

theorem follows_readOnly {g : Outbox ι → α} {Q : α → Phase ι → Prop} (hQ : ∀ a, Q a p) :
    Follows (Turn i) p (Prog.read .read g) Q := follows_look Aside.refl hQ

theorem follows_readClock {Q : Instant → Phase ι → Prop} (hQ : ∀ a, Q a p) : Follows (Turn i) p readClock Q :=
  follows_look aside_consult hQ

theorem follows_resolveNow {now : Option Instant} {Q : Instant → Phase ι → Prop} (hQ : ∀ a, Q a p) :
    Follows (Turn i) p (resolveNow now) Q := by
  cases now with
  | none => exact follows_readClock hQ
  | some t => exact hQ t

theorem follows_gateClock {cfg : DrainConfig} {now : Instant} {Q : Instant → Phase ι → Prop} (hQ : ∀ a, Q a p) :
    Follows (Turn i) p (gateClock cfg now) Q := by
  unfold gateClock
  split
  · exact follows_readClock hQ
  · exact hQ now

theorem follows_freshness {cfg : DrainConfig} {row : DeliveryRow ι} {now : Instant} {Q : Freshness → Phase ι → Prop}
    (hQ : ∀ v, Q v p) : Follows (Turn i) p (freshness cfg row now) Q := by
  unfold freshness
  split
  · exact follows_look (fun _ => ⟨rfl, rfl, rfl, rfl⟩) hQ
  · exact hQ _

/-! ## Enqueue, recovery and the gate -/

theorem follows_carryOut {k : DeliveryId} {m : Message} {d : Disposition} {now : Instant} {c : EnqueueDecision} :
    Follows (Turn i) p (carryOut k m d now c) fun _ _ => True := by
  cases c with
  | insert =>
    refine follows_txn (fun s => .aside (.refl s)) fun s a s' h => ⟨p, .insert (d := d) (t := now) ?_, trivial⟩
    obtain ⟨t, ht, he⟩ := Option.map_eq_some_iff.1 h
    obtain rfl : t = s' := congrArg Prod.snd he
    exact ht
  | refresh => exact follows_write (fun _ => .refresh) trivial
  | approveUpdate prev => exact follows_write (fun _ => .approveUpdate) trivial
  | reopen => exact follows_write (fun _ => .reopen) trivial
  | identicalPending | alreadySent | notUpdate | unhandled => exact follows_ret trivial

theorem follows_enqueue {k : DeliveryId} {m : Message} {d : Disposition} {now : Option Instant} :
    Follows (Turn i) p (enqueue k m d now) fun _ _ => True := by
  refine follows_bind (follows_resolveNow fun t => follows_bind (follows_readOnly fun found => ?_))
  exact follows_carryOut

theorem follows_recoverInFlight {stale : ℤ} {now : Option Instant} :
    Follows (Turn i) p (recoverInFlight stale now) fun _ q => q = p := by
  refine follows_bind (follows_resolveNow fun t => follows_bind (follows_readOnly fun ids => ?_))
  exact follows_write (fun _ => .recover) rfl

/-- The gate in front of the claim leaves the phase alone. -/
theorem follows_expireRowIfStale {cfg : DrainConfig} {row : DeliveryRow ι} {now : Instant}
    {Q : Freshness → Phase ι → Prop} (hQ : ∀ v, Q v p) :
    Follows (Turn i) p (expireRowIfStale cfg none row now) Q := by
  refine follows_bind (follows_freshness fun v => ?_)
  cases v with
  | ok => exact hQ .ok
  | expired reason => exact follows_bind (follows_write (fun _ => .retire (Or.inl rfl)) (hQ _))
  | unqualified reason => exact follows_bind (follows_write (fun _ => .retire (Or.inr rfl)) (hQ _))
  | defer => exact follows_bind (follows_readOnly fun n => follows_bind (follows_write (fun _ => .defer) (hQ _)))

theorem follows_expireStale {cfg : DrainConfig} {now : Instant} :
    Follows (Turn i) p (expireStale cfg now) fun _ q => q = p := by
  unfold expireStale
  split
  · refine follows_bind (follows_readOnly fun rows => ?_)
    refine follows_forEach (J := fun _ q => q = p) (fun x xs q hq => ?_) rows p rfl
    exact follows_bind (follows_expireRowIfStale fun v => follows_ret hq)
  · exact follows_ret rfl

theorem follows_passesGate {cfg : DrainConfig} {now : Instant} {row : DeliveryRow ι} {Q : Bool → Phase ι → Prop}
    (hQ : ∀ v, Q v p) : Follows (Turn i) p (passesGate cfg now row) Q := by
  unfold passesGate
  split
  · exact follows_bind (follows_gateClock fun t => follows_bind (follows_expireRowIfStale fun v => hQ _))
  · exact hQ true

end Rules

/-! ## Settlement -/

section Settlement

variable {i : ι} {seen : List (DeliveryRow ι)} {a : AttemptId ι} {asDigest : Bool} {res : SendOutcome}
  {rows : List (DeliveryRow ι)} {x : DeliveryRow ι}

theorem follows_recordAmbiguous {detail : String} {Q : Unit → Phase ι → Prop} (hx : x ∈ rows)
    (hres : res.acknowledged = none) (hQ : Q () ⟨seen, .answered a (dropRow x.deliveryId rows) asDigest res⟩) :
    Follows (Turn i) ⟨seen, .answered a rows asDigest res⟩ (recordAmbiguous a x.deliveryId detail) Q :=
  follows_write (fun _ => .markAmbiguous hx hres) hQ

/-- A row that is gone is not marked. -/
theorem follows_recordFailure {error : String} {retry : Option ℤ} {permanent : Bool} {now : Instant}
    {Q : Unit → Phase ι → Prop} (hx : x ∈ rows) (hres : res.rejected = true)
    (hQ : Q () ⟨seen, .answered a (dropRow x.deliveryId rows) asDigest res⟩)
    (hkeep : Q () ⟨seen, .answered a rows asDigest res⟩) :
    Follows (Turn i) ⟨seen, .answered a rows asDigest res⟩
      (recordFailure a x.deliveryId error retry permanent now) Q := by
  refine follows_bind (follows_readOnly fun attempts => ?_)
  cases attempts with
  | none => exact hkeep
  | some n => exact follows_write (fun _ => .markFailed hx hres) hQ

theorem rejected_of {res : SenderResult} (hok : ¬ res.ok = true) (hamb : ¬ res.ambiguous = true) :
    (SendOutcome.result res).rejected = true := by
  simp [SendOutcome.rejected, hok, hamb]

theorem acknowledged_of_not_ok {res : SenderResult} (hok : ¬ res.ok = true) :
    (SendOutcome.result res).acknowledged = none := by
  simp [SendOutcome.acknowledged, hok]

/-- After the settlement of a single row. -/
theorem follows_settle {now : Instant} :
    Follows (Turn i) ⟨seen, .answered a [x] false res⟩ (settle a x now res) fun _ q => q.seen = seen := by
  cases res with
  | cancelled => exact follows_bind (follows_recordAmbiguous List.mem_cons_self rfl follows_raise)
  | error exc => exact follows_recordAmbiguous List.mem_cons_self rfl rfl
  | result res =>
    simp only [settle]
    split
    · rename_i hok
      exact follows_write (fun _ => .markSent hok) rfl
    · rename_i hok
      split
      · exact follows_recordAmbiguous List.mem_cons_self (acknowledged_of_not_ok hok) rfl
      · rename_i hamb
        exact follows_recordFailure List.mem_cons_self (rejected_of hok hamb) rfl rfl

/-- What remains of a batch while its rows are settled one by one. -/
def Settling (seen : List (DeliveryRow ι)) (a : AttemptId ι) (asDigest : Bool) (res : SendOutcome)
    (rest : List (DeliveryRow ι)) (q : Phase ι) : Prop :=
  ∃ rows, q = ⟨seen, .answered a rows asDigest res⟩ ∧ (∀ x ∈ rest, x ∈ rows) ∧ (rest.map (·.deliveryId)).Nodup

omit [DecidableEq ι] in
theorem Settling.drop {rest : List (DeliveryRow ι)} (hmem : ∀ y ∈ x :: rest, y ∈ rows)
    (hnodup : ((x :: rest).map (·.deliveryId)).Nodup) :
    Settling seen a asDigest res rest ⟨seen, .answered a (dropRow x.deliveryId rows) asDigest res⟩ := by
  rw [List.map_cons, List.nodup_cons] at hnodup
  refine ⟨_, rfl, fun y hy => mem_dropRow.2 ⟨hmem y (List.mem_cons_of_mem x hy), fun heq => hnodup.1 ?_⟩, hnodup.2⟩
  rw [← heq]
  exact List.mem_map_of_mem hy

theorem follows_recordDigestAmbiguous {detail : String} {rest : List (DeliveryRow ι)} {q : Phase ι}
    (hres : res.acknowledged = none) (h : Settling seen a asDigest res rest q) :
    Follows (Turn i) q (recordDigestAmbiguous a rest detail) fun _ _ => True := by
  refine follows_mono (follows_forEach (fun y ys q hq => ?_) rest q h) fun _ _ _ => trivial
  obtain ⟨rows, rfl, hmem, hnodup⟩ := hq
  exact follows_recordAmbiguous (hmem y List.mem_cons_self) hres (Settling.drop hmem hnodup)

theorem follows_settleDigest {bucket : ℤ} {now : Instant} {claimed ordered : List (DeliveryRow ι)}
    (hmem : ∀ x ∈ claimed, x ∈ ordered) (hnodup : (claimed.map (·.deliveryId)).Nodup) :
    Follows (Turn i) ⟨seen, .answered a ordered true res⟩ (settleDigest a bucket now claimed ordered res)
      fun _ _ => True := by
  have hsettling : Settling seen a true res claimed ⟨seen, .answered a ordered true res⟩ := ⟨ordered, rfl, hmem, hnodup⟩
  cases res with
  | cancelled => exact follows_bind (follows_mono (follows_recordDigestAmbiguous rfl hsettling) fun _ _ _ => follows_raise)
  | error exc => exact follows_recordDigestAmbiguous rfl hsettling
  | result res =>
    simp only [settleDigest, Prog.bind_eq]
    split
    · rename_i hok
      refine follows_bind (follows_write (fun _ => .markDigestSent hok) ?_)
      exact follows_write (fun _ => .aside ⟨rfl, rfl, rfl, rfl⟩) trivial
    · rename_i hok
      split
      · exact follows_recordDigestAmbiguous (acknowledged_of_not_ok hok) hsettling
      · rename_i hamb
        refine follows_mono (follows_forEach (fun y ys q hq => ?_) claimed _ hsettling) fun _ _ _ => trivial
        obtain ⟨rows, rfl, hmem, hnodup⟩ := hq
        refine follows_recordFailure (hmem y List.mem_cons_self) (rejected_of hok hamb) (Settling.drop hmem hnodup) ?_
        rw [List.map_cons, List.nodup_cons] at hnodup
        exact ⟨rows, rfl, fun z hz => hmem z (List.mem_cons_of_mem y hz), hnodup.2⟩

end Settlement

/-! ## The drains -/

section Drains

variable {i : ι} {seen : List (DeliveryRow ι)} {a : AttemptId ι}

theorem follows_send {rows rows' : List (DeliveryRow ι)} {asDigest : Bool} {shown : ℕ} {Q : SendOutcome → Phase ι → Prop}
    (hperm : rows'.Perm rows) (hQ : ∀ res, Q res ⟨seen, .answered a rows' asDigest res⟩) :
    Follows (Turn i) ⟨seen, .claimed a rows⟩ (send rows' asDigest shown a) Q := by
  refine follows_bind (follows_write (fun _ => .request hperm) ?_)
  exact ⟨fun s => ⟨_, .response, hQ _⟩, trivial⟩

theorem follows_claimAndSend {stage : Stage ι} {row : DeliveryRow ι} {now : Instant} (hrow : row ∈ seen) :
    Follows (Turn i) ⟨seen, stage⟩ (claimAndSend i row now) fun _ q => q.seen = seen := by
  refine ⟨fun s => ⟨_, .aside (aside_consult s), ?_⟩, trivial⟩
  refine follows_bind ⟨fun s => ?_, trivial⟩
  by_cases hw : winsClaim row.deliveryId now s
  · refine ⟨_, .claim rfl hrow hw, ?_⟩
    simp only [Prog.ret_bind, hw, if_true]
    exact follows_bind (follows_send (List.Perm.refl _) fun res => follows_settle)
  · refine ⟨_, .aside ?_, ?_⟩
    · rw [claimForSend_of_not_wins (by simpa using hw)]
      exact .refl s
    · simp only [Prog.ret_bind, hw, Bool.false_eq_true, if_false]
      exact follows_ret rfl

/-- The loop of `process_pending`: nothing is claimed in front of a row. -/
theorem follows_deliverRow {stage : Stage ι} {cfg : DrainConfig} {now : Instant} {row : DeliveryRow ι}
    (hrow : row ∈ seen) : Follows (Turn i) ⟨seen, stage⟩ (deliverRow i cfg now row) fun _ q => q.seen = seen := by
  refine follows_bind (follows_readClock fun sendNow => follows_bind (follows_passesGate fun fresh => ?_))
  cases fresh with
  | true => exact follows_claimAndSend hrow
  | false => exact follows_ret rfl

theorem follows_select {p : Phase ι} {route : Option Route} {now : Instant} {limit : Option ℕ}
    {Q : List (DeliveryRow ι) → Phase ι → Prop}
    (hQ : ∀ rows, (rows.map (·.deliveryId)).Nodup → Q rows ⟨rows, .idle⟩) :
    Follows (Turn i) p (Prog.read .select (pending route now limit)) Q :=
  ⟨fun s => ⟨_, .select (fun _ hx => (mem_pending hx).1) (nodup_pending route now limit s),
    hQ _ (nodup_pending route now limit s)⟩, trivial⟩

theorem follows_processPending {p : Phase ι} {cfg : DrainConfig} {now : Option Instant} :
    Follows (Turn i) p (processPending i cfg now) fun _ _ => True := by
  refine follows_bind (follows_resolveNow fun t => follows_bind (follows_mono follows_recoverInFlight ?_))
  rintro _ _ rfl
  refine follows_bind (follows_mono follows_expireStale ?_)
  rintro _ _ rfl
  refine follows_bind (follows_select fun rows hnodup => ?_)
  split
  · refine follows_mono (follows_forEach (J := fun xs (q : Phase ι) => q.seen = rows ∧ ∀ x ∈ xs, x ∈ rows) ?_ rows
      ⟨rows, .idle⟩ ⟨rfl, fun _ h => h⟩) fun _ _ _ => trivial
    · rintro x xs ⟨_, stage⟩ ⟨rfl, hmem⟩
      refine follows_mono (follows_deliverRow (hmem x List.mem_cons_self)) fun _ q hq => ⟨hq, fun y hy => ?_⟩
      exact hmem y (List.mem_cons_of_mem x hy)
  · exact follows_ret trivial

/-! ## The digest -/

/-- While a batch is judged again: the rows kept so far and those still to be judged are claimed. -/
def Rechecking (seen : List (DeliveryRow ι)) (a : AttemptId ι) (kept rest : List (DeliveryRow ι)) (q : Phase ι) : Prop :=
  q = ⟨seen, .claimed a (kept ++ rest)⟩ ∧ ((kept ++ rest).map (·.deliveryId)).Nodup

omit [DecidableEq ι] in
theorem dropRow_middle {kept rest : List (DeliveryRow ι)} {x : DeliveryRow ι}
    (h : ((kept ++ x :: rest).map (·.deliveryId)).Nodup) : dropRow x.deliveryId (kept ++ x :: rest) = kept ++ rest := by
  rw [List.map_append, List.map_cons, List.nodup_append, List.nodup_cons] at h
  obtain ⟨-, ⟨hrest, -⟩, hkept⟩ := h
  rw [dropRow, List.filter_append, List.filter_cons_of_neg (by simp)]
  congr 1
  · refine List.filter_eq_self.2 fun y hy => decide_eq_true ?_
    exact hkept _ (List.mem_map_of_mem hy) _ List.mem_cons_self
  · refine List.filter_eq_self.2 fun y hy => decide_eq_true fun heq => hrest ?_
    exact heq ▸ List.mem_map_of_mem hy

omit [DecidableEq ι] in
theorem Rechecking.drop {kept rest : List (DeliveryRow ι)} {x : DeliveryRow ι}
    (h : ((kept ++ x :: rest).map (·.deliveryId)).Nodup) :
    Rechecking seen a kept rest ⟨seen, .claimed a (dropRow x.deliveryId (kept ++ x :: rest))⟩ := by
  rw [dropRow_middle h]
  refine ⟨rfl, h.sublist (List.Sublist.map _ ?_)⟩
  exact List.Sublist.append (List.Sublist.refl kept) (List.sublist_cons_self x rest)

theorem follows_recheck {cfg : DrainConfig} {reading : Instant} {kept rest : List (DeliveryRow ι)} {x : DeliveryRow ι}
    {q : Phase ι} (h : Rechecking seen a kept (x :: rest) q) :
    Follows (Turn i) q (recheck cfg a reading x) fun keep =>
      Rechecking seen a (if keep then kept ++ [x] else kept) rest := by
  obtain ⟨rfl, hnodup⟩ := h
  have hx : x ∈ kept ++ x :: rest := List.mem_append_right kept List.mem_cons_self
  refine follows_bind (follows_bind (follows_freshness fun v => ?_))
  cases v with
  | ok =>
    refine follows_ret (follows_ret ?_)
    simpa [Rechecking] using hnodup
  | expired reason =>
    refine follows_bind (follows_write (fun _ => .retireClaimed hx (Or.inl rfl)) ?_)
    exact follows_ret (follows_ret (Rechecking.drop hnodup))
  | unqualified reason =>
    refine follows_bind (follows_write (fun _ => .retireClaimed hx (Or.inr rfl)) ?_)
    exact follows_ret (follows_ret (Rechecking.drop hnodup))
  | defer =>
    refine follows_bind (follows_readOnly fun n => follows_bind (follows_write (fun _ => .defer) ?_))
    refine follows_ret (follows_bind (follows_write (fun _ => .release hx) ?_))
    exact follows_ret (Rechecking.drop hnodup)

theorem follows_transmitDigest {bucket : ℤ} {now : Instant} {claimed : List (DeliveryRow ι)}
    (hnodup : (claimed.map (·.deliveryId)).Nodup) :
    Follows (Turn i) ⟨seen, .claimed a claimed⟩ (transmitDigest a bucket now claimed) fun _ _ => True := by
  have hperm : (digestDisplayOrder claimed).Perm claimed := List.perm_insertionSort _ claimed
  refine follows_bind (follows_send hperm fun res => ?_)
  exact follows_settleDigest (fun x hx => hperm.mem_iff.2 hx) hnodup

theorem follows_sendBatch {cfg : DrainConfig} {bucket : ℤ} {now : Instant} {claimed : List (DeliveryRow ι)}
    (hnodup : (claimed.map (·.deliveryId)).Nodup) :
    Follows (Turn i) ⟨seen, .claimed a claimed⟩ (sendBatch cfg a bucket now claimed) fun _ _ => True := by
  refine follows_bind (follows_gateClock fun t => follows_bind ?_)
  refine follows_mono (follows_filterEach (J := Rechecking seen a) (fun ys x xs q hq => follows_recheck hq) claimed []
    ⟨seen, .claimed a claimed⟩ ⟨rfl, hnodup⟩) ?_
  rintro kept _ ⟨rfl, hkept⟩
  simp only [List.nil_append, List.append_nil] at hkept ⊢
  split
  · exact follows_ret trivial
  · exact follows_transmitDigest hkept

theorem follows_claimAndSendDigest {stage : Stage ι} {cfg : DrainConfig} {bucket : ℤ} {now : Instant}
    {rows : List (DeliveryRow ι)} (hmem : ∀ x ∈ rows, x ∈ seen) (hnodup : (rows.map (·.deliveryId)).Nodup) :
    Follows (Turn i) ⟨seen, stage⟩ (claimAndSendDigest i cfg bucket now rows) fun _ _ => True := by
  refine ⟨fun s => ⟨_, .aside (aside_consult s), ?_⟩, trivial⟩
  refine follows_bind ⟨fun s' => ⟨_, .claimBatch rfl hmem hnodup, ?_⟩, trivial⟩
  simp only [Prog.ret_bind]
  split
  · exact follows_ret trivial
  · exact follows_sendBatch (hnodup.sublist (List.Sublist.map _ List.filter_sublist))

theorem follows_freshRows {p : Phase ι} {cfg : DrainConfig} {now : Instant} {rows : List (DeliveryRow ι)}
    {Q : List (DeliveryRow ι) → Phase ι → Prop} (hQ : ∀ fresh, fresh.Sublist rows → Q fresh p) :
    Follows (Turn i) p (freshRows cfg now rows) Q := by
  unfold freshRows
  split
  · refine follows_mono (follows_filterEach (J := fun ys xs q => q = p ∧ (ys ++ xs).Sublist rows) ?_ rows [] p
      ⟨rfl, List.Sublist.refl _⟩) ?_
    rotate_left
    · rintro fresh _ ⟨rfl, hsub⟩
      exact hQ fresh (by simpa using hsub)
    · rintro ys x xs _ ⟨rfl, hsub⟩
      refine follows_passesGate fun keep => ⟨rfl, ?_⟩
      cases keep with
      | true => simpa using hsub
      | false =>
        exact (List.Sublist.append (List.Sublist.refl ys) (List.sublist_cons_self x xs)).trans (by simpa using hsub)
  · exact follows_ret (hQ rows (List.Sublist.refl rows))

theorem follows_processDigest {p : Phase ι} {cfg : DrainConfig} {interval : ℤ} {now : Option Instant} :
    Follows (Turn i) p (processDigest i cfg interval now) fun _ _ => True := by
  refine follows_bind (follows_resolveNow fun t => follows_bind (follows_mono follows_recoverInFlight ?_))
  rintro _ _ rfl
  refine follows_bind (follows_readOnly fun due => follows_bind (follows_mono follows_expireStale ?_))
  rintro _ _ rfl
  refine follows_bind (follows_select fun rows hnodup => follows_bind (follows_freshRows fun fresh hsub => ?_))
  unfold aggregate
  split
  · exact follows_ret trivial
  · split
    · exact follows_write (fun _ => .aside ⟨rfl, rfl, rfl, rfl⟩) trivial
    · split
      · exact follows_claimAndSendDigest (fun x hx => hsub.subset hx) (hnodup.sublist (hsub.map _))
      · exact follows_ret trivial

end Drains

theorem starts_follow {i : ι} {x : Job ι Unit} (h : Starts i x) :
    Follows (Turn i) ⟨[], .idle⟩ x fun _ _ => True := by
  cases h with
  | enqueue k m d now => exact follows_enqueue
  | processPending cfg now => exact follows_processPending
  | processDigest cfg interval now => exact follows_processDigest
  | recoverInFlight stale now => exact follows_mono follows_recoverInFlight fun _ _ _ => trivial

end TalonX.Delivery
