import AggreApi.Subscription

/-!
# What the subscription transactions do to the rows

A pre-consume under a fresh request id debits one row, taken after the reset it is due, and leaves
every other row as it was or as its due reset makes it. An adjustment moves the usage of one row by
its delta unless it is cut off at zero.
-/

namespace AggreApi

open List Option

variable {db db' : Subscriptions} {r : SubscriptionPreConsumeResult} (sub : UserSubscription)

section Reset

variable {env : SubscriptionEnv} {sub sub' : UserSubscription} {plan : SubscriptionPlan}
  {saved : Bool}

section
variable (h : maybeResetUserSubscriptionWithPlanTx env sub plan = some (sub', saved))
include h

theorem maybeReset_cases :
    sub' = sub ∨ saved = true ∧ ∃ used last next, (used = sub.amountUsed ∨ used = 0) ∧
      sub' = { sub with amountUsed := used, lastResetTime := last, nextResetTime := next } := by
  simp only [maybeResetUserSubscriptionWithPlanTx] at h
  generalize (if sub.lastResetTime ≤ 0 then sub.startTime else sub.lastResetTime) = base at h
  split at h
  · simp only [some.injEq, Prod.mk.injEq] at h
    exact .inl h.1.symm
  split at h
  · simp only [some.injEq, Prod.mk.injEq] at h
    exact .inl h.1.symm
  split at h
  · cases h
  split_ifs at h <;> simp only [some.injEq, Prod.mk.injEq] at h
  · exact .inr ⟨h.2.symm, 0, _, _, .inr rfl, h.1.symm⟩
  · exact .inr ⟨h.2.symm, sub.amountUsed, _, _, .inl rfl, h.1.symm⟩
  · exact .inl h.1.symm

theorem maybeReset_id : sub'.id = sub.id := by
  obtain rfl | ⟨-, used, last, next, -, rfl⟩ := maybeReset_cases h <;> rfl

end

theorem maybeReset_unsaved
    (h : maybeResetUserSubscriptionWithPlanTx env sub plan = some (sub', false)) : sub' = sub := by
  obtain rfl | ⟨hs, -⟩ := maybeReset_cases h
  · rfl
  · exact absurd hs Bool.false_ne_true

theorem afterDueReset_used (h : afterDueReset env sub = some sub') :
    sub'.amountUsed = sub.amountUsed ∨ sub'.amountUsed = 0 := by
  simp only [afterDueReset] at h
  split at h
  · obtain ⟨⟨_, saved⟩, hr, rfl⟩ := map_eq_some_iff.1 h
    obtain rfl | ⟨-, used, last, next, hu, rfl⟩ := maybeReset_cases hr
    · exact .inl rfl
    · exact hu
  · cases h

variable {t : Table UserSubscription.id}

theorem find_saveReset (hf : t.find sub.id = some sub)
    (h : maybeResetUserSubscriptionWithPlanTx env sub plan = some (sub', saved)) :
    (if saved then t.put sub' else t).find sub.id = some sub' := by
  cases saved with
  | false => rw [maybeReset_unsaved h]; exact hf
  | true =>
    rw [if_pos rfl, ← maybeReset_id h]
    exact Table.find_put_self (by rw [maybeReset_id h]; exact hf)

theorem find_saveReset_of_ne {k : ℕ} (hk : k ≠ sub.id)
    (h : maybeResetUserSubscriptionWithPlanTx env sub plan = some (sub', saved)) :
    (if saved then t.put sub' else t).find k = t.find k := by
  cases saved with
  | false => rfl
  | true =>
    rw [if_pos rfl]
    exact Table.find_put_of_ne t (by rw [maybeReset_id h]; exact hk)

end Reset

@[simp] theorem debit_id (amount : ℤ) :
    (sub.debit amount).id = sub.id := rfl

@[simp] theorem debit_used (amount : ℤ) :
    (sub.debit amount).amountUsed = sub.amountUsed + amount := rfl

structure Debited (env : SubscriptionEnv) (amount : ℤ) (id : ℕ)
    (before after : Table UserSubscription.id) : Prop where
  row : ∃ sub sub', before.find id = some sub ∧ afterDueReset env sub = some sub' ∧
    after.find id = some (sub'.debit amount)
  others : ∀ k, k ≠ id → after.find k = before.find k ∨
    ∃ sub sub', before.find k = some sub ∧ afterDueReset env sub = some sub' ∧
      after.find k = some sub'

section PreConsume

variable {env : SubscriptionEnv} {owner : PreConsumeOwner} {f : PreConsumeFaults}
  {requestId : String} {amount : ℤ}

theorem debitCandidate_ok {sub : UserSubscription} (hr : db.records.find requestId = none)
    (h : debitCandidate owner f requestId amount db sub = .ok (db', r)) :
    db'.subs = db.subs.put (sub.debit amount) ∧
      db'.records = db.records.insert
        ⟨requestId, owner.recordUserId sub, sub.id, amount, .consumed⟩ ∧
      r = ⟨sub.id, amount, sub.amountTotal, sub.amountUsed, sub.amountUsed + amount⟩ := by
  rcases hc : f.create with _ | e <;> simp only [debitCandidate, hr, hc, reduceCtorEq] at h
  split at h
  · cases h
  · simp only [Except.ok.injEq, Prod.mk.injEq] at h
    obtain ⟨rfl, rfl⟩ := h
    exact ⟨rfl, rfl, rfl⟩

variable {c : UserSubscription} {x : Subscriptions × SubscriptionPreConsumeResult}

theorem preConsumeLoop_cons {l : List UserSubscription}
    (h : preConsumeLoop env owner f requestId amount (c :: l) db = some (.ok x)) :
    ∃ plan sub saved, env.plan c.planId = .ok plan ∧
      maybeResetUserSubscriptionWithPlanTx env c plan = some (sub, saved) ∧
      (sub.hasRoom amount = true ∧ debitCandidate owner f requestId amount
          { db with subs := if saved then db.subs.put sub else db.subs } sub = .ok x ∨
        sub.hasRoom amount = false ∧ preConsumeLoop env owner f requestId amount l
          { db with subs := if saved then db.subs.put sub else db.subs } = some (.ok x)) := by
  simp only [preConsumeLoop] at h
  split at h
  · cases h
  rename_i plan hplan
  split at h
  · cases h
  rename_i sub saved hreset
  split at h
  · cases h
  rename_i saved _ _ _
  refine ⟨plan, sub, saved, hplan, hreset, ?_⟩
  rw [show (if saved then { db with subs := db.subs.put sub } else db) =
      { db with subs := if saved then db.subs.put sub else db.subs } by split_ifs <;> rfl] at h
  generalize (if saved then db.subs.put sub else db.subs) = subs at h ⊢
  split_ifs at h with hroom
  · exact .inl ⟨hroom, some.inj h⟩
  · exact .inr ⟨by simpa using hroom, h⟩

theorem preConsumeLoop_ok : ∀ {l : List UserSubscription} {db db' : Subscriptions}
    {r : SubscriptionPreConsumeResult}, (l.map UserSubscription.id).Nodup →
    (∀ c ∈ l, db.subs.find c.id = some c) → db.records.find requestId = none →
    preConsumeLoop env owner f requestId amount l db = some (.ok (db', r)) →
    ∃ c ∈ l, ∃ sub, afterDueReset env c = some sub ∧
      db'.subs.find c.id = some (sub.debit amount) ∧
      db'.records = db.records.insert
        ⟨requestId, owner.recordUserId sub, c.id, amount, .consumed⟩ ∧
      r = ⟨c.id, amount, sub.amountTotal, sub.amountUsed, sub.amountUsed + amount⟩ ∧
      ∀ k, k ≠ c.id → db'.subs.find k = db.subs.find k ∨
        ∃ c' ∈ l, c'.id = k ∧ ∃ sub', afterDueReset env c' = some sub' ∧
          db'.subs.find k = some sub'
  | [], _, _, _, _, _, _, h => absurd h (by simp [preConsumeLoop])
  | c :: l, db, db', r, hn, hl, hr, h => by
    rw [map_cons, nodup_cons] at hn
    obtain ⟨plan, sub, saved, hplan, hreset, h⟩ := preConsumeLoop_cons h
    have hdue : afterDueReset env c = some sub := by simp [afterDueReset, hplan, hreset]
    have hid := maybeReset_id hreset
    have hself := find_saveReset (hl c mem_cons_self) hreset
    have hother : ∀ k, k ≠ c.id → (if saved then db.subs.put sub else db.subs).find k =
        db.subs.find k := fun k hk => find_saveReset_of_ne hk hreset
    generalize (if saved then db.subs.put sub else db.subs) = subs at h hself hother
    rcases h with ⟨-, h⟩ | ⟨-, h⟩
    · obtain ⟨hs, hrec, hres⟩ := debitCandidate_ok (by exact hr) h
      refine ⟨c, mem_cons_self, sub, hdue, ?_, ?_, ?_, fun k hk => .inl ?_⟩
      · rw [hs, ← hid]
        exact Table.find_put_self (a := sub.debit amount) (by rw [debit_id, hid]; exact hself)
      · rw [hrec, hid]
      · rw [hres, hid]
      · rw [hs, Table.find_put_of_ne (a := sub.debit amount) _ (by rw [debit_id, hid]; exact hk)]
        exact hother k hk
    · have hrest : ∀ c' ∈ l, c'.id ≠ c.id := fun c' hc' he =>
        hn.1 (he ▸ mem_map_of_mem hc')
      obtain ⟨c', hc', sub', hdue', hfind, hrec, hres, hoth⟩ := preConsumeLoop_ok hn.2
        (fun c' hc' => (hother _ (hrest c' hc')).trans (hl c' (mem_cons_of_mem _ hc')))
        (by exact hr) h
      refine ⟨c', mem_cons_of_mem _ hc', sub', hdue', hfind, hrec, hres, fun k hk => ?_⟩
      rcases eq_or_ne k c.id with rfl | hkc
      · rcases hoth _ hk with he | ⟨c'', hc'', he, -⟩
        · exact .inr ⟨c, mem_cons_self, rfl, sub, hdue, he.trans hself⟩
        · exact absurd he (hrest c'' hc'')
      · rcases hoth k hk with he | ⟨c'', hc'', he, hrow⟩
        · exact .inl (he.trans (hother k hkc))
        · exact .inr ⟨c'', mem_cons_of_mem _ hc'', he, hrow⟩

theorem mem_activeSubscriptions
    (h : c ∈ activeSubscriptions env owner db) : db.subs.find c.id = some c := by
  rw [activeSubscriptions, mem_insertionSort] at h
  exact Table.find_of_mem (mem_of_mem_filter h)

theorem nodup_activeSubscriptions (db : Subscriptions) :
    ((activeSubscriptions env owner db).map UserSubscription.id).Nodup := by
  have hsub : ((db.subs.rows.filter fun s => owner.selects s && s.status = .active &&
      env.now < s.endTime).map UserSubscription.id).Nodup :=
    db.subs.nodup.sublist (filter_sublist.map _)
  exact ((perm_insertionSort _ _).map _).nodup_iff.2 hsub

section
variable (hr : db.records.find requestId = none)
include hr

theorem preConsumeSubscription_loop
    (h : preConsumeSubscription env owner f requestId amount db = some (.ok x)) :
    0 < amount ∧ preConsumeLoop env owner f requestId amount (activeSubscriptions env owner db) db =
      some (.ok x) := by
  simp only [preConsumeSubscription] at h
  split at h
  · cases h
  split at h
  · cases h
  rename_i ha
  split at h
  · cases h
  rcases hf : f.findRecord with _ | e <;>
    simp only [preConsumeBody, hr, hf, some.injEq, reduceCtorEq] at h
  split at h
  · cases h
  · cases h
  · exact ⟨not_le.1 ha, h⟩

theorem preConsumeSubscription_ok
    (h : preConsumeSubscription env owner f requestId amount db = some (.ok (db', r))) :
    0 < amount ∧ r.preConsumed = amount ∧
      Debited env amount r.userSubscriptionId db.subs db'.subs ∧
      ∃ userId, db'.records = db.records.insert
        ⟨requestId, userId, r.userSubscriptionId, amount, .consumed⟩ := by
  obtain ⟨ha, h⟩ := preConsumeSubscription_loop hr h
  obtain ⟨c, hc, sub, hdue, hfind, hrec, rfl, hoth⟩ := preConsumeLoop_ok
    (nodup_activeSubscriptions db) (fun c hc => mem_activeSubscriptions hc) hr h
  refine ⟨ha, rfl, ⟨⟨c, sub, mem_activeSubscriptions hc, hdue, hfind⟩, fun k hk => ?_⟩,
    owner.recordUserId sub, hrec⟩
  rcases hoth k hk with he | ⟨c', hc', rfl, sub', hdue', hf'⟩
  · exact .inl he
  · exact .inr ⟨c', sub', mem_activeSubscriptions hc', hdue', hf'⟩

theorem preConsumeSubscription_record
    (h : preConsumeSubscription env owner f requestId amount db = some (.ok (db', r))) :
    ∃ userId, db'.records.find requestId =
      some ⟨requestId, userId, r.userSubscriptionId, amount, .consumed⟩ := by
  obtain ⟨-, -, -, userId, hrec⟩ := preConsumeSubscription_ok hr h
  exact ⟨userId, by rw [hrec]; exact Table.find_insert_self (t := db.records) hr⟩

end

variable {existing : SubscriptionPreConsumeRecord}

theorem preConsumeBody_of_record (hr : db.records.find requestId = some existing)
    (h : preConsumeBody env owner f requestId amount db = some (.ok (db', r))) : db' = db := by
  rcases hf : f.findRecord with _ | err <;> simp only [preConsumeBody, hf, hr] at h
  · split at h
    · cases h
    split at h
    · cases h
    · cases h
    · rename_i sub _ _
      rcases hd : duplicateResult sub existing with e | res <;> rw [hd] at h
      · exact absurd h (by simp [Except.map])
      · simp only [Except.map, some.injEq, Except.ok.injEq, Prod.mk.injEq] at h
        exact h.1.symm
  · cases h

theorem preConsumeSubscription_of_record
    (hr : db.records.find requestId = some existing)
    (h : preConsumeSubscription env owner f requestId amount db = some (.ok (db', r))) :
    db' = db := by
  simp only [preConsumeSubscription] at h
  split at h
  · cases h
  split at h
  · cases h
  split at h
  · cases h
  · exact preConsumeBody_of_record hr h

end PreConsume

/-- The row with its usage moved by `delta`, cut off at zero. -/
def UserSubscription.shift (delta : ℤ) : UserSubscription :=
  { sub with amountUsed := max 0 (sub.amountUsed + delta) }

@[simp] theorem shift_id (delta : ℤ) : (sub.shift delta).id = sub.id :=
  rfl

@[simp] theorem shift_used (delta : ℤ) :
    (sub.shift delta).amountUsed = max 0 (sub.amountUsed + delta) := rfl

section Adjust

variable {sub sub' : UserSubscription} {delta : ℤ} {db db' : Subscriptions} {id : ℕ}
  {err : Option String}

theorem adjust_ok (h : sub.adjust delta = .ok sub') : sub' = sub.shift delta := by
  simp only [UserSubscription.adjust] at h
  rw [show (if sub.amountUsed + delta < 0 then 0 else sub.amountUsed + delta) =
    max 0 (sub.amountUsed + delta) by split_ifs <;> omega] at h
  split at h
  · cases h
  · exact (Except.ok.inj h).symm

section
variable (hd : delta ≠ 0) (h : postConsumeUserSubscriptionDelta db id delta err = .ok db')
include hd h

theorem postConsume_ok :
    ∃ sub, db.subs.find id = some sub ∧
      db' = { db with subs := db.subs.put (sub.shift delta) } := by
  simp only [postConsumeUserSubscriptionDelta, if_neg hd] at h
  split at h
  · cases h
  split at h
  · cases h
  · cases h
  rename_i sub hsub
  rcases ha : sub.adjust delta with e | sub' <;> rw [ha] at h
  · exact absurd h (by simp [Except.map])
  · refine ⟨sub, hsub, ?_⟩
    rw [← adjust_ok ha]
    exact (Except.ok.inj h).symm

theorem find_postConsume :
    ∃ sub, db.subs.find id = some sub ∧ db'.subs.find id = some (sub.shift delta) := by
  obtain ⟨sub, hsub, rfl⟩ := postConsume_ok hd h
  refine ⟨sub, hsub, ?_⟩
  have hid := Table.key_of_find hsub
  rw [← hid]
  exact Table.find_put_self (a := sub.shift delta) (by rw [shift_id, hid]; exact hsub)

end

end Adjust

section Refund

variable {db : Subscriptions} {requestId : String} {record : SubscriptionPreConsumeRecord}

theorem refundPreConsume_cases {f : RefundFaults} (hs : f.save = none)
    (hr : db.records.find requestId = some record) (hc : record.status = .consumed)
    (hp : 0 < record.preConsumed) :
    (∃ e, refundSubscriptionPreConsume db requestId f = (db, .error e)) ∨
      ∃ db', postConsumeUserSubscriptionDelta db record.userSubscriptionId (-record.preConsumed)
          f.adjust = .ok db' ∧
        refundSubscriptionPreConsume db requestId f =
          ({ db' with records := db'.records.put { record with status := .refunded } },
            .ok ()) := by
  unfold refundSubscriptionPreConsume
  split_ifs
  · exact .inl ⟨_, rfl⟩
  rcases f.find with _ | e
  · simp only [hr, hc, reduceCtorEq, if_false, if_neg (not_le.2 hp), hs]
    rcases postConsumeUserSubscriptionDelta db record.userSubscriptionId (-record.preConsumed)
      f.adjust with e | db'
    · exact .inl ⟨e, rfl⟩
    · exact .inr ⟨db', rfl, rfl⟩
  · exact .inl ⟨e, by simp only⟩

theorem refundWithRetry_cases (hr : db.records.find requestId = some record)
    (hc : record.status = .consumed) (hp : 0 < record.preConsumed) :
    ∀ {fs : List RefundFaults}, fs ≠ [] → (∀ f ∈ fs, f.save = none) →
    (∃ e, refundWithRetry db requestId fs = (db, .error e)) ∨
      ∃ err db', postConsumeUserSubscriptionDelta db record.userSubscriptionId
          (-record.preConsumed) err = .ok db' ∧
        refundWithRetry db requestId fs =
          ({ db' with records := db'.records.put { record with status := .refunded } }, .ok ())
  | [], hne, _ => absurd rfl hne
  | [f], _, hs => by
    rcases refundPreConsume_cases (hs f mem_cons_self) hr hc hp with h | ⟨db', h, he⟩
    · exact .inl h
    · exact .inr ⟨_, db', h, he⟩
  | f :: f' :: fs, _, hs => by
    simp only [refundWithRetry]
    rcases refundPreConsume_cases (hs f mem_cons_self) hr hc hp with ⟨e, h⟩ | ⟨db', h, he⟩
    · rw [h]
      exact refundWithRetry_cases hr hc hp (cons_ne_nil _ _)
        fun g hg => hs g (mem_cons_of_mem _ hg)
    · rw [he]
      exact .inr ⟨_, db', h, rfl⟩

end Refund

def noPreConsumeFaults : PreConsumeFaults := ⟨none, none, false, fun _ => none, none, none, none⟩

def noonEnv : SubscriptionEnv := ⟨1000, ⟨id, id, id⟩, fun _ => .ok ⟨.never, 0⟩, 1⟩

def sampleSubs : Subscriptions where
  subs := ⟨[⟨1, 7, 0, 1, 100, 20, 0, 2000, .active, 0, 0⟩,
    ⟨2, 8, 4, 1, 60, 20, 0, 2000, .active, 0, 0⟩], by decide⟩
  records := ⟨[], by decide⟩

end AggreApi
