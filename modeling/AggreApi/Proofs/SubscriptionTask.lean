import AggreApi.Proofs.SubscriptionReset
import AggreApi.Proofs.UserGroup

/-!
# The maintenance pass

A batch of expiries marks as many rows as it reports. A batch of resets reports every row whose plan
it finds, but moves only those whose plan has a boundary between their last reset and now; with a
batch of others it goes round for ever.
-/

namespace AggreApi

open List GroupDb GroupSubscription

theorem Table.countP_put {κ α : Type*} [DecidableEq κ] {key : α → κ} {t : Table key} {a r : α}
    (p : α → Bool) (h : t.find (key a) = some r) :
    (t.put a).rows.countP p + (if p r then 1 else 0) =
      t.rows.countP p + if p a then 1 else 0 := by
  have hcount : ∀ l : List α,
      ((l.countP p : ℕ) : ℤ) = (l.map fun a => if p a then 1 else 0).sum := by
    intro l
    induction l with
    | nil => rfl
    | cons _ _ ih =>
      rw [countP_cons, map_cons, sum_cons, ← ih]
      split_ifs <;> push_cast <;> omega
  have htotal := Table.total_put (fun a => if p a then (1 : ℤ) else 0) h
  rw [Table.total, Table.total, ← hcount, ← hcount] at htotal
  split_ifs at htotal ⊢ <;> omega

variable {genv : GroupEnv} {env : SubscriptionEnv} {now : ℤ} {db db' : GroupDb}

namespace GroupDb

theorem due_expireFor (s : GroupSubscription) (userId : ℕ) (now : ℤ) :
    (if (s.expireFor userId now).due now then 1 else 0) +
      (if s.userId = userId ∧ s.due now = true then 1 else 0) = if s.due now then 1 else 0 := by
  by_cases hmark : s.userId = userId ∧ s.due now = true
  · have hgone : ({ s with status := .expired } : GroupSubscription).due now = false := by
      simp [due]
    rw [expireFor, if_pos hmark, if_pos hmark, hgone, hmark.2]
    rfl
  · rw [expireFor, if_neg hmark, if_neg hmark]
    rfl

theorem expireDueCount_markExpired (db : GroupDb) (userId : ℕ) (now : ℤ) :
    (db.markExpired userId now).expireDueCount now + db.expiredCount userId now =
      db.expireDueCount now := by
  unfold expireDueCount expiredCount markExpired Table.map
  dsimp only
  induction db.subs.rows with
  | nil => rfl
  | cons s _ ih =>
    have hcell := due_expireFor s userId now
    simp only [map_cons, countP_cons, decide_eq_true_eq] at ih ⊢
    omega

theorem expireDueCount_foldl (users : List ℕ) : ∀ r : GroupDb × ℕ, (users.foldl (fun r userId =>
      (r.1.expireUser genv now userId, r.2 + r.1.expiredCount userId now)) r).1.expireDueCount now +
      (users.foldl (fun r userId =>
        (r.1.expireUser genv now userId, r.2 + r.1.expiredCount userId now)) r).2 =
    r.1.expireDueCount now + r.2 := by
  induction users with
  | nil => exact fun _ => rfl
  | cons userId _ ih =>
    intro r
    rw [foldl_cons, ih]
    have hmark := expireDueCount_markExpired r.1 userId now
    have hsubs : (r.1.expireUser genv now userId).expireDueCount now =
        (r.1.markExpired userId now).expireDueCount now := by
      rw [expireDueCount, expireUser_subs, expireDueCount]
    change (r.1.expireUser genv now userId).expireDueCount now +
      (r.2 + r.1.expiredCount userId now) = _
    omega

theorem expireDueCount_expireDue (genv : GroupEnv) (db : GroupDb) (limit now : ℤ) :
    (expireDueSubscriptions genv db limit now).1.expireDueCount now +
      (expireDueSubscriptions genv db limit now).2 = db.expireDueCount now :=
  expireDueCount_foldl _ (db, 0)

end GroupDb

theorem expireLoop_returns (genv : GroupEnv) (now : ℤ) : ∀ (turns : ℕ) (db : GroupDb),
    db.expireDueCount now < turns → (expireLoop genv now turns db).isSome
  | 0, _, h => absurd h (by omega)
  | turns + 1, db, h => by
    have hcount := expireDueCount_expireDue genv db subscriptionResetBatchSize now
    rw [expireLoop]
    split_ifs with hshort
    · rfl
    · refine expireLoop_returns genv now turns _ ?_
      unfold subscriptionResetBatchSize at hshort hcount ⊢
      omega

theorem maybeReset_due {sub row : UserSubscription} {plan : SubscriptionPlan} {saved : Bool}
    (hdue : 0 < sub.nextResetTime ∧ sub.nextResetTime ≤ env.now)
    (h : maybeResetUserSubscriptionWithPlanTx env sub plan = some (row, saved)) :
    ((0 < calcNextResetTime env.cal plan sub.resetBase sub.endTime ∧
        calcNextResetTime env.cal plan sub.resetBase sub.endTime ≤ env.now) ∧ saved = true ∧
      row.id = sub.id ∧ ¬(0 < row.nextResetTime ∧ row.nextResetTime ≤ env.now)) ∨
    (¬(0 < calcNextResetTime env.cal plan sub.resetBase sub.endTime ∧
        calcNextResetTime env.cal plan sub.resetBase sub.endTime ≤ env.now) ∧ saved = false) := by
  unfold UserSubscription.resetBase
  simp only [maybeResetUserSubscriptionWithPlanTx] at h
  generalize (if sub.lastResetTime ≤ 0 then sub.startTime else sub.lastResetTime) = base at h ⊢
  rw [if_neg (by omega)] at h
  by_cases hnever : plan.quotaResetPeriod = .never
  · rw [if_pos hnever] at h
    have hnone : calcNextResetTime env.cal plan base sub.endTime = 0 := by
      rw [calcNextResetTime, hnever]
    obtain ⟨-, rfl⟩ := Prod.mk.inj (Option.some.inj h)
    exact .inr ⟨by omega, rfl⟩
  · rw [if_neg hnever] at h
    rcases hloop : advanceReset env plan sub.endTime env.fuel base
        (calcNextResetTime env.cal plan base sub.endTime) with _ | ⟨b, n⟩
    · rw [hloop] at h
      cases h
    · rw [hloop] at h
      dsimp only at h
      split_ifs at h with hmove hinit
      · obtain ⟨rfl, rfl⟩ := Prod.mk.inj (Option.some.inj h)
        exact .inl ⟨hmove, rfl, rfl, (advanceReset_spec hloop).2.1⟩
      · omega
      · obtain ⟨-, rfl⟩ := Prod.mk.inj (Option.some.inj h)
        exact .inr ⟨hmove, rfl⟩

theorem GroupDb.resetOne_cases {s : GroupSubscription} {n : ℕ} {r : GroupDb × ℕ}
    (hfind : db.subs.find s.id = some s) (hdue : s.resetDue env.now = true)
    (h : resetOne env s (db, n) = some r) :
    ((env.plan s.planId).isOk = false ∧ s.moves env = false ∧ r = (db, n)) ∨
    ((env.plan s.planId).isOk = true ∧ s.moves env = false ∧ r = (db, n + 1)) ∨
    ((env.plan s.planId).isOk = true ∧ s.moves env = true ∧ ∃ row : GroupSubscription,
      row.id = s.id ∧ row.resetDue env.now = false ∧
        r = ({ db with subs := db.subs.put row }, n + 1)) := by
  have hdue : s.status = .active ∧ 0 < s.nextResetTime ∧ s.nextResetTime ≤ env.now := by
    simpa [GroupSubscription.resetDue] using hdue
  unfold resetOne at h
  unfold moves
  rcases hplan : env.plan s.planId with err | plan
  · rw [hplan] at h
    exact .inl ⟨rfl, rfl, (Option.some.inj h).symm⟩
  · rw [hplan] at h
    dsimp only at h
    rw [hfind] at h
    dsimp only at h
    rw [if_pos hdue.2] at h
    rcases hreset : maybeResetUserSubscriptionWithPlanTx env s.toUserSubscription plan with
      _ | ⟨row, saved⟩
    · rw [hreset] at h
      cases h
    · rw [hreset] at h
      dsimp only at h ⊢
      rcases maybeReset_due hdue.2 hreset with ⟨hmove, rfl, hid, hnodue⟩ | ⟨hmove, rfl⟩
      · rw [if_pos rfl] at h
        refine .inr (.inr ⟨rfl, decide_eq_true hmove, { s with toUserSubscription := row }, hid, ?_,
          (Option.some.inj h).symm⟩)
        rw [GroupSubscription.resetDue, decide_eq_false_iff_not]
        exact fun hcontra => hnodue hcontra.2
      · exact .inr (.inl ⟨rfl, decide_eq_false hmove, (Option.some.inj h).symm⟩)

structure Batch (env : SubscriptionEnv) (db : GroupDb) (batch : List GroupSubscription) : Prop where
  stored : ∀ s ∈ batch, db.subs.find s.id = some s
  due : ∀ s ∈ batch, s.resetDue env.now = true
  nodup : (batch.map fun s => s.id).Nodup

theorem resetBatch_batch (env : SubscriptionEnv) (db : GroupDb) (limit : ℕ) :
    Batch env db (db.resetBatch env.now limit) := by
  have hperm := (db.subs.rows.filter fun s => s.resetDue env.now).perm_insertionSort
    fun a b => a.nextResetTime ≤ b.nextResetTime
  have hmem : ∀ s ∈ db.resetBatch env.now limit, s ∈ db.subs.rows ∧ s.resetDue env.now = true :=
    fun s hs => mem_filter.1 (hperm.mem_iff.1 (mem_of_mem_take hs))
  refine ⟨fun s hs => Table.find_of_mem (hmem s hs).1, fun s hs => (hmem s hs).2, ?_⟩
  have hsub := (take_sublist limit
    ((db.subs.rows.filter fun s => s.resetDue env.now).insertionSort
      fun a b => a.nextResetTime ≤ b.nextResetTime)).map fun s : GroupSubscription => s.id
  refine hsub.nodup ((hperm.map fun s : GroupSubscription => s.id).nodup_iff.2 ?_)
  exact db.subs.nodup.sublist ((filter_sublist).map _)

theorem countP_resetBatch_le (env : SubscriptionEnv) (db : GroupDb) (limit : ℕ)
    (p : GroupSubscription → Bool) :
    (db.resetBatch env.now limit).countP p ≤ db.subs.rows.countP p := by
  have hperm := (db.subs.rows.filter fun s => s.resetDue env.now).perm_insertionSort
    fun a b => a.nextResetTime ≤ b.nextResetTime
  calc (db.resetBatch env.now limit).countP p
      ≤ _ := (take_sublist limit _).countP_le
    _ = (db.subs.rows.filter fun s => s.resetDue env.now).countP p := hperm.countP_eq p
    _ ≤ db.subs.rows.countP p := filter_sublist.countP_le

theorem Batch.tail {s : GroupSubscription} {batch : List GroupSubscription}
    (h : Batch env db (s :: batch)) (hsame : ∀ k, k ≠ s.id → db'.subs.find k = db.subs.find k) :
    Batch env db' batch := by
  obtain ⟨hnotin, hnodup⟩ := nodup_cons.1 (map_cons .. ▸ h.nodup)
  refine ⟨fun s' hs' => ?_, fun s' hs' => h.due s' (mem_cons_of_mem _ hs'), hnodup⟩
  rw [hsame s'.id fun heq => hnotin (heq ▸ mem_map_of_mem hs')]
  exact h.stored s' (mem_cons_of_mem _ hs')

theorem resetBatch_counts : ∀ {batch : List GroupSubscription} {db : GroupDb} {n n' : ℕ},
    Batch env db batch →
    batch.foldlM (fun r s => resetOne env s r) (db, n) = some (db', n') →
    n' = n + batch.countP (fun s => (env.plan s.planId).isOk) ∧
      db'.resetDueCount env.now + batch.countP (fun s => s.moves env) =
        db.resetDueCount env.now ∧
      db'.subs.rows.countP (fun s => s.stuck env) = db.subs.rows.countP fun s => s.stuck env
  | [], db, n, n', _, h => by
    obtain ⟨rfl, rfl⟩ := Prod.mk.inj (Option.some.inj h)
    exact ⟨rfl, rfl, rfl⟩
  | s :: batch, db, n, n', hbatch, h => by
    rw [foldlM_cons] at h
    obtain ⟨⟨db₁, n₁⟩, hone, hrest⟩ := Option.bind_eq_some_iff.1 h
    have hfind := hbatch.stored s mem_cons_self
    have hdue := hbatch.due s mem_cons_self
    simp only [countP_cons]
    rcases resetOne_cases hfind hdue hone with
      ⟨hok, hmove, heq⟩ | ⟨hok, hmove, heq⟩ | ⟨hok, hmove, row, hid, hnodue, heq⟩
    · obtain ⟨rfl, rfl⟩ := Prod.mk.inj heq
      have ih := resetBatch_counts (hbatch.tail fun _ _ => rfl) hrest
      rw [hok, hmove]
      simpa using ih
    · obtain ⟨rfl, rfl⟩ := Prod.mk.inj heq
      obtain ⟨hn, hcount, hstuck⟩ := resetBatch_counts (hbatch.tail fun _ _ => rfl) hrest
      rw [hok, hmove]
      simp only [if_true, Bool.false_eq_true, if_false]
      omega
    · obtain ⟨rfl, rfl⟩ := Prod.mk.inj heq
      have hfind' : db.subs.find row.id = some s := by rw [hid]; exact hfind
      have htail : Batch env { db with subs := db.subs.put row } batch := hbatch.tail fun k hk =>
        Table.find_put_of_ne db.subs (by rwa [hid])
      obtain ⟨hn, hcount, hstuck⟩ := resetBatch_counts htail hrest
      have hless := Table.countP_put (fun s => s.resetDue env.now) hfind'
      have hkeep := Table.countP_put (fun s => s.stuck env) hfind'
      have hfree : s.stuck env = false := by simp [stuck, hmove]
      have hfree' : row.stuck env = false := by simp [stuck, hnodue]
      rw [hdue, hnodue] at hless
      rw [hfree, hfree'] at hkeep
      rw [hok, hmove]
      unfold resetDueCount at hcount ⊢
      simp only [if_true, Bool.false_eq_true, if_false] at hless hkeep hstuck hcount ⊢
      omega

theorem Batch.ok_le : ∀ {batch : List GroupSubscription}, Batch env db batch →
    batch.countP (fun s => (env.plan s.planId).isOk) ≤
      batch.countP (fun s => s.moves env) + batch.countP fun s => s.stuck env
  | [], _ => Nat.zero_le _
  | s :: batch, h => by
    have ih := (h.tail fun _ _ => rfl).ok_le
    have hdue := h.due s mem_cons_self
    have hstuck : s.stuck env = ((env.plan s.planId).isOk && !s.moves env) := by
      simp [stuck, hdue]
    simp only [countP_cons, hstuck]
    cases (env.plan s.planId).isOk <;> cases s.moves env <;> simp <;> omega

section

variable (hcal : env.cal.Ahead) (hfuel : env.now.toNat + 2 ≤ env.fuel)
  (hplans : ∀ id plan, env.plan id = .ok plan → plan.quotaResetPeriod = .custom →
    0 < plan.quotaResetCustomSeconds → durationSeconds plan.quotaResetCustomSeconds ≠ 0)
include hcal hfuel hplans

theorem resetOne_isSome (s : GroupSubscription) (r : GroupDb × ℕ) :
    (resetOne env s r).isSome := by
  unfold resetOne
  rcases hplan : env.plan s.planId with err | plan
  · rfl
  · dsimp only
    rcases r.1.subs.find s.id with _ | locked
    · rfl
    · dsimp only
      obtain ⟨⟨row, saved⟩, hreset⟩ := Option.isSome_iff_exists.1
        (maybeReset_returns hcal (hplans s.planId plan hplan) env.now env.plan hfuel
          locked.toUserSubscription)
      rw [show maybeResetUserSubscriptionWithPlanTx env locked.toUserSubscription plan = _
        from hreset]
      split_ifs <;> rfl

theorem resetDueSubscriptions_isSome (db : GroupDb) (limit : ℕ) :
    (resetDueSubscriptions env db limit).isSome := by
  unfold resetDueSubscriptions
  generalize (db, 0) = r
  induction db.resetBatch env.now limit generalizing r with
  | nil => rfl
  | cons s _ ih =>
    obtain ⟨r', hr'⟩ := Option.isSome_iff_exists.1 (resetOne_isSome hcal hfuel hplans s r)
    rw [foldlM_cons, hr']
    exact ih r'

theorem resetLoop_returns : ∀ (turns : ℕ) (db : GroupDb), db.resetDueCount env.now < turns →
    db.subs.rows.countP (fun s => s.stuck env) < subscriptionResetBatchSize →
    (resetLoop env turns db).isSome
  | 0, _, h, _ => absurd h (by omega)
  | turns + 1, db, h, hfew => by
    obtain ⟨⟨db', n⟩, hr⟩ := Option.isSome_iff_exists.1
      (resetDueSubscriptions_isSome hcal hfuel hplans db subscriptionResetBatchSize)
    have hbatch := resetBatch_batch env db subscriptionResetBatchSize
    obtain ⟨hn, hcount, hstuck⟩ := resetBatch_counts hbatch hr
    rw [resetLoop, hr]
    dsimp only
    split_ifs with hshort
    · rfl
    · refine resetLoop_returns turns db' ?_ (by omega)
      have hsplit := hbatch.ok_le
      have hle := countP_resetBatch_le env db subscriptionResetBatchSize
        fun s => s.stuck env
      omega

end

theorem length_resetBatch (db : GroupDb) (limit : ℕ) :
    (db.resetBatch env.now limit).length = min limit (db.resetDueCount env.now) := by
  rw [resetBatch, length_take, length_insertionSort, resetDueCount,
    countP_eq_length_filter]

theorem resetLoop_stuck (hall : ∀ id, (env.plan id).isOk = true) : ∀ (turns : ℕ) (db : GroupDb),
    subscriptionResetBatchSize ≤ db.subs.rows.countP (fun s => s.stuck env) →
    resetLoop env turns db = none
  | 0, _, _ => rfl
  | turns + 1, db, hmany => by
    rw [resetLoop]
    rcases hr : resetDueSubscriptions env db subscriptionResetBatchSize with _ | ⟨db', n⟩
    · rfl
    · obtain ⟨hn, -, hstuck⟩ :=
        resetBatch_counts (resetBatch_batch env db subscriptionResetBatchSize) hr
      have hdue : db.subs.rows.countP (fun s => s.stuck env) ≤ db.resetDueCount env.now :=
        countP_mono_left fun s _ hs => (of_decide_eq_true hs).1
      have hfull : n = subscriptionResetBatchSize := by
        rw [hn, countP_eq_length.2 fun s _ => hall s.planId, length_resetBatch]
        omega
      dsimp only
      rw [if_neg hfull.ge.not_gt]
      exact resetLoop_stuck hall turns db' (by omega)

def NoMoreStuck (env : SubscriptionEnv) (db db' : GroupDb) : Prop :=
  db'.subs.rows.length = db.subs.rows.length ∧
    db'.subs.rows.countP (fun s => s.stuck env) ≤ db.subs.rows.countP fun s => s.stuck env

theorem NoMoreStuck.trans {db₁ db₂ : GroupDb} (h : NoMoreStuck env db db₁)
    (h' : NoMoreStuck env db₁ db₂) : NoMoreStuck env db db₂ :=
  ⟨h'.1.trans h.1, h'.2.trans h.2⟩

theorem noMoreStuck_expireUser (db : GroupDb) (userId : ℕ) :
    NoMoreStuck env db (db.expireUser genv now userId) := by
  unfold NoMoreStuck
  rw [expireUser_subs]
  change (db.subs.rows.map fun s => s.expireFor userId now).length = _ ∧
    (db.subs.rows.map fun s => s.expireFor userId now).countP _ ≤ _
  refine ⟨length_map _, ?_⟩
  rw [countP_map]
  refine countP_mono_left fun s _ hs => ?_
  rw [Function.comp_apply, expireFor] at hs
  split_ifs at hs
  · simp [stuck, GroupSubscription.resetDue] at hs
  · exact hs

theorem noMoreStuck_foldl (genv : GroupEnv) (env : SubscriptionEnv) (now : ℤ) (users : List ℕ) :
    ∀ r : GroupDb × ℕ, NoMoreStuck env r.1 (users.foldl (fun r userId =>
      (r.1.expireUser genv now userId, r.2 + r.1.expiredCount userId now)) r).1 := by
  induction users with
  | nil => exact fun _ => ⟨rfl, le_rfl⟩
  | cons userId _ ih => exact fun r => (noMoreStuck_expireUser r.1 userId).trans (ih _)

theorem noMoreStuck_expireLoop (env : SubscriptionEnv) : ∀ {turns : ℕ} {db : GroupDb},
    expireLoop genv now turns db = some db' → NoMoreStuck env db db'
  | 0, _, h => nomatch h
  | turns + 1, db, h => by
    have hone := noMoreStuck_foldl genv env now
      (db.batchUsers now subscriptionResetBatchSize) (db, 0)
    rw [expireLoop] at h
    split_ifs at h with hshort
    · cases h
      exact hone
    · exact hone.trans (noMoreStuck_expireLoop env h)

def neverEnv : SubscriptionEnv := ⟨5000, evenCalendar, fun _ => .ok ⟨.never, 0⟩, 5002⟩

def dueSubscription (id : ℕ) : GroupSubscription :=
  ⟨⟨id, 1, 0, 1, 500, 70, 1000, 100000, .active, 1000, 2000⟩, "order", "", ""⟩

def dueSubscriptions : GroupDb where
  subs := ⟨(List.range 300).map dueSubscription, by
    rw [map_map]
    exact nodup_range.map fun _ _ h => h⟩
  orders := ⟨[], nodup_nil⟩
  group _ := ""
  cache _ := none
  clock := 0

end AggreApi
