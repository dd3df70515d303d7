import AggreApi.SubscriptionUsage
import AggreApi.Proofs.Subscription

/-!
# Usage is what the requests of the period hold

Where no adjustment is cut off at zero, the usage of a subscription is the net debits of the
requests that have pre-consumed since its last reset and what earlier ones have moved since then. A
refund that comes after the reset takes from the usage of others.
-/

namespace AggreApi

open Debit SubUsage SubscriptionPreConsumeRecord Table UserSubscription

variable {db : Subscriptions} {r : String} {d : Debit} {delta : ℤ} {e : UsageEvent}

section Reset

variable {env : SubscriptionEnv} {sub sub' : UserSubscription}

theorem maybeReset_used {plan : SubscriptionPlan} {saved : Bool}
    (h : maybeResetUserSubscriptionWithPlanTx env sub plan = some (sub', saved)) :
    sub'.amountUsed = if plan.resets env sub then 0 else sub.amountUsed := by
  simp only [maybeResetUserSubscriptionWithPlanTx] at h
  simp only [SubscriptionPlan.resets, decide_eq_true_eq]
  generalize (if sub.lastResetTime ≤ 0 then sub.startTime else sub.lastResetTime) = base at h ⊢
  split at h
  · rename_i hnext
    simp only [Option.some.injEq, Prod.mk.injEq] at h
    rw [if_neg fun hd => hd.1 hnext, h.1]
  split at h
  · rename_i hnever
    simp only [Option.some.injEq, Prod.mk.injEq] at h
    rw [if_neg fun hd => hd.2.1 hnever, h.1]
  rename_i hnext hnever
  split at h
  · cases h
  split_ifs at h with hdue <;> simp only [Option.some.injEq, Prod.mk.injEq] at h <;>
    simp [hnext, hnever, hdue, ← h.1]

theorem col_saveReset {t : Table UserSubscription.id} {plan : SubscriptionPlan} {saved : Bool}
    (hf : t.find sub.id = some sub)
    (h : maybeResetUserSubscriptionWithPlanTx env sub plan = some (sub', saved)) (k : ℕ) :
    (if saved then t.put sub' else t).col UserSubscription.amountUsed k =
      if k = sub.id ∧ plan.resets env sub then 0 else t.col UserSubscription.amountUsed k := by
  rcases eq_or_ne k sub.id with rfl | hk
  · rw [col_of_find (find_saveReset hf h), col_of_find hf, maybeReset_used h]
    simp
  · rw [col, find_saveReset_of_ne hk h, col]
    simp [hk]

end Reset

section PreConsume

variable {env : SubscriptionEnv} {owner : PreConsumeOwner} {f : PreConsumeFaults}
  {requestId : String} {amount : ℤ}

theorem preConsumeLoop_used : ∀ {l : List UserSubscription} {db db' : Subscriptions}
    {r : SubscriptionPreConsumeResult}, (l.map UserSubscription.id).Nodup →
    (∀ c ∈ l, db.subs.find c.id = some c) → db.records.find requestId = none →
    preConsumeLoop env owner f requestId amount l db = some (.ok (db', r)) → ∀ k,
    db'.subs.col amountUsed k =
      (if k ∈ resetRows env amount l then 0 else db.subs.col amountUsed k) +
        if k = r.userSubscriptionId then amount else 0
  | [], _, _, _, _, _, _, h, _ => absurd h (by simp [preConsumeLoop])
  | c :: l, db, db', r, hn, hl, hr, h, k => by
    rw [List.map_cons, List.nodup_cons] at hn
    obtain ⟨plan, sub, saved, hplan, hreset, h⟩ := preConsumeLoop_cons h
    have hdue : resetDue env c = plan.resets env c := by simp [resetDue, hplan]
    have hafter : afterDueReset env c = some sub := by simp [afterDueReset, hplan, hreset]
    have hself := find_saveReset (hl c List.mem_cons_self) hreset
    have hother : ∀ k, k ≠ c.id → (if saved then db.subs.put sub else db.subs).find k =
        db.subs.find k := fun k hk => find_saveReset_of_ne hk hreset
    have hcol := col_saveReset (hl c List.mem_cons_self) hreset k
    generalize (if saved then db.subs.put sub else db.subs) = subs at h hself hother hcol
    rw [resetRows, hafter, Option.any_some, hdue]
    rcases h with ⟨hroom, h⟩ | ⟨hroom, h⟩
    · obtain ⟨hs, -, hres⟩ := debitCandidate_ok (by exact hr) h
      have hfind : subs.find (sub.debit amount).id = some sub := by
        rw [debit_id, maybeReset_id hreset]
        exact hself
      have hput := col_put amountUsed hfind k
      rw [hs, hput, hcol, hres]
      by_cases hp : plan.resets env c = true <;> simp [hroom, hp, maybeReset_id hreset]
    · have hrest : ∀ c' ∈ l, c'.id ≠ c.id := fun c' hc' he =>
        hn.1 (he ▸ List.mem_map_of_mem hc')
      rw [preConsumeLoop_used hn.2
        (fun c' hc' => (hother _ (hrest c' hc')).trans (hl c' (List.mem_cons_of_mem _ hc')))
        (by exact hr) h k]
      simp only [hcol]
      by_cases hp : plan.resets env c = true <;> simp [hroom, hp]
      split_ifs <;> simp_all

theorem preConsumeSubscription_used {db' : Subscriptions} {r : SubscriptionPreConsumeResult}
    (hr : db.records.find requestId = none)
    (h : preConsumeSubscription env owner f requestId amount db = some (.ok (db', r))) (k : ℕ) :
    db'.subs.col UserSubscription.amountUsed k =
      (if k ∈ resetRows env amount (activeSubscriptions env owner db) then 0
        else db.subs.col amountUsed k) +
        if k = r.userSubscriptionId then amount else 0 :=
  preConsumeLoop_used (nodup_activeSubscriptions db) (fun _ hc => mem_activeSubscriptions hc) hr
    (preConsumeSubscription_loop hr h).2 k

end PreConsume

section Refund

variable (db : Subscriptions) (requestId : String) (f : RefundFaults)

theorem refundPreConsume_moves {db' : Subscriptions} {res : Except String Unit}
    (h : refundSubscriptionPreConsume db requestId f = (db', res)) :
    (refundedAmount db requestId f = 0 ∧ db'.subs = db.subs ∨
      ∃ record sub, db.records.find requestId = some record ∧ record.status ≠ .refunded ∧
        refundedAmount db requestId f = record.preConsumed ∧
        db.subs.find record.userSubscriptionId = some sub ∧
        db'.subs = db.subs.put (sub.shift (-record.preConsumed))) ∧
      (db'.records = db.records ∨ ∃ record, db.records.find requestId = some record ∧
        db'.records = db.records.put { record with status := .refunded }) := by
  unfold refundSubscriptionPreConsume at h
  unfold refundedAmount
  by_cases hb : isBlank requestId = true
  · simp only [hb, if_true, Prod.mk.injEq] at h
    rcases f.find with _ | e <;> rcases db.records.find requestId with _ | record <;>
      simp [hb, ← h.1]
  rcases hff : f.find with _ | e <;> rcases hr : db.records.find requestId with _ | record <;>
    simp only [hff, hr, hb, Bool.false_eq_true, if_false, false_or] at h ⊢
  case none.some =>
    by_cases hs : record.status = .refunded
    · simp only [hs, if_true, Prod.mk.injEq] at h
      simp [hs, ← h.1]
    by_cases hp : record.preConsumed ≤ 0
    · simp only [hs, hp, if_true, if_false] at h
      rcases hsave : f.save with _ | e <;> simp only [hsave, Prod.mk.injEq] at h <;>
        simp [hp, ← h.1]
    simp only [hs, hp, if_false, or_self] at h ⊢
    rcases hc : postConsumeUserSubscriptionDelta db record.userSubscriptionId
      (-record.preConsumed) f.adjust with e | db₁ <;> rw [hc] at h
    · simp only [Prod.mk.injEq] at h
      simp [← h.1]
    · obtain ⟨sub, hsub, rfl⟩ := postConsume_ok (by omega) hc
      rcases hsave : f.save with _ | e <;> simp only [hsave, Prod.mk.injEq] at h <;>
        obtain ⟨rfl, -⟩ := h
      · exact ⟨.inr ⟨record, sub, rfl, hs, rfl, hsub, rfl⟩, .inr ⟨record, rfl, rfl⟩⟩
      · exact ⟨.inr ⟨record, sub, rfl, hs, rfl, hsub, rfl⟩, .inl rfl⟩
  all_goals
    simp only [Prod.mk.injEq] at h
    simp [← h.1]

end Refund

namespace Debit

/-- What a request holds of the usage of a subscription. -/
def share (id : ℕ) (d : Debit) : ℤ :=
  if d.subscription = id then if d.current then d.net else d.late else 0

@[simp] theorem move_requestId (delta : ℤ) (d : Debit) : (d.move delta).requestId = d.requestId :=
  rfl

@[simp] theorem move_subscription (delta : ℤ) (d : Debit) :
    (d.move delta).subscription = d.subscription := rfl

@[simp] theorem expire_subscription (ids : List ℕ) (d : Debit) :
    (d.expire ids).subscription = d.subscription := by
  unfold expire
  split_ifs <;> rfl

theorem share_move (id : ℕ) (delta : ℤ) (d : Debit) :
    (d.move delta).share id = d.share id + if id = d.subscription then delta else 0 := by
  rcases eq_or_ne id d.subscription with rfl | hd
  · by_cases hc : d.current = true <;> simp [share, move, hc]
  · simp [share, hd, hd.symm]

theorem share_expire (id : ℕ) (ids : List ℕ) (d : Debit) :
    (d.expire ids).share id = if id ∈ ids then 0 else d.share id := by
  by_cases hd : d.subscription = id
  · by_cases hi : id ∈ ids <;> simp [share, expire, hd, hi]
  · by_cases hi : d.subscription ∈ ids <;> simp [share, expire, hd, hi]

end Debit

namespace SubUsage

variable {s : SubUsage}

/-- Every record has its request's debit, and a usage is what the requests hold of it. -/
structure Inv (s : SubUsage) : Prop where
  linked : ∀ r, (s.debits.find r).map subscription =
    (s.db.records.find r).map userSubscriptionId
  used : ∀ id, s.used id = s.debits.total (share id)

theorem Inv.exists_debit (h : s.Inv) {record : SubscriptionPreConsumeRecord}
    (hr : s.db.records.find r = some record) :
    ∃ d, s.debits.find r = some d ∧ d.subscription = record.userSubscriptionId := by
  have := h.linked r
  rw [hr, Option.map_some] at this
  exact Option.map_eq_some_iff.1 this

theorem Inv.debit_none (h : s.Inv) (hr : s.db.records.find r = none) : s.debits.find r = none := by
  have := h.linked r
  rw [hr, Option.map_none] at this
  exact Option.map_eq_none_iff.1 this

theorem inv_init (hu : db.unused) : (init db).Inv := by
  simp only [Subscriptions.unused, Bool.and_eq_true, List.all_eq_true, decide_eq_true_eq,
    List.isEmpty_iff] at hu
  refine ⟨fun r => ?_, fun id => ?_⟩
  · simp [init, find, hu.2]
  · rcases hf : db.subs.find id with _ | sub
    · simp [init, used, col, hf, total]
    · simp [init, used, col, hf, total, hu.1 sub (mem_of_find hf)]

theorem find_expire (s : SubUsage) (ids : List ℕ) (r : String) :
    ((s.expire ids).find r).map subscription =
      (s.debits.find r).map subscription := by
  rw [expire, find_map, Option.map_map]
  congr 1
  funext d
  exact expire_subscription ids d

theorem total_expire (s : SubUsage) (ids : List ℕ) (id : ℕ) :
    (s.expire ids).total (share id) =
      if id ∈ ids then 0 else s.debits.total (share id) := by
  rw [expire, total_map]
  simp only [share_expire]
  split_ifs
  · exact total_eq_zero fun _ _ => rfl
  · rfl

theorem preConsumed_cases (s : SubUsage) (env : SubscriptionEnv) (owner : PreConsumeOwner)
    (f : PreConsumeFaults) (requestId : String) (amount : ℤ) :
    s.preConsumed env owner requestId amount
        (preConsumeSubscription env owner f requestId amount s.db) = s ∨
      ∃ db r, s.db.records.find requestId = none ∧
        preConsumeSubscription env owner f requestId amount s.db = some (.ok (db, r)) ∧
        s.preConsumed env owner requestId amount
            (preConsumeSubscription env owner f requestId amount s.db) =
          ⟨db, (s.expire (resetRows env amount (activeSubscriptions env owner s.db))).insert
            ⟨requestId, r.userSubscriptionId, amount, 0, true⟩⟩ := by
  rcases hp : preConsumeSubscription env owner f requestId amount s.db with _ | err | ⟨db, r⟩
  · exact .inl rfl
  · exact .inl rfl
  rcases hr : s.db.records.find requestId with _ | record
  · exact .inr ⟨db, r, rfl, rfl, by simp [preConsumed, hr]⟩
  · refine .inl ?_
    simp [preConsumed, hr, preConsumeSubscription_of_record hr hp]

theorem step_preConsume {I : SubUsage → Prop} (h : I s)
    (hp : ∀ env owner f requestId amount, I (s.preConsumed env owner requestId amount
      (preConsumeSubscription env owner f requestId amount s.db)))
    (requestId : String) (id : ℕ) (amount : ℤ) (env : SubscriptionEnv) (f : PreConsumeFaults) :
    I (s.step (.preConsumeUser requestId id amount env f)) ∧
      I (s.step (.preConsumeTeam requestId id amount env f)) := by
  simp only [step, preConsumeUserSubscription, preConsumeTeamSubscription]
  split_ifs
  · exact ⟨h, h⟩
  · exact ⟨hp env (userOwner id) f requestId amount, hp env (teamOwner id) f requestId amount⟩

theorem Inv.preConsumed (h : s.Inv) (env : SubscriptionEnv) (owner : PreConsumeOwner)
    (f : PreConsumeFaults) (requestId : String) (amount : ℤ) :
    (s.preConsumed env owner requestId amount
      (preConsumeSubscription env owner f requestId amount s.db)).Inv := by
  rcases preConsumed_cases s env owner f requestId amount with he | ⟨db, r, hr, hp, he⟩ <;> rw [he]
  · exact h
  obtain ⟨-, -, -, userId, hrec⟩ := preConsumeSubscription_ok hr hp
  have hnone : ∀ ids, (s.expire ids).find requestId = none := fun ids => by
    rw [expire, find_map, h.debit_none hr, Option.map_none]
  refine ⟨fun k => ?_, fun id => ?_⟩
  · rcases eq_or_ne k requestId with rfl | hk
    · rw [find_insert_self (a := Debit.mk ..) (hnone _), hrec,
        find_insert_self (a := SubscriptionPreConsumeRecord.mk ..) hr]
      rfl
    · rw [find_insert_of_ne _ (a := Debit.mk ..) hk, find_expire, h.linked, hrec,
        find_insert_of_ne _ (a := SubscriptionPreConsumeRecord.mk ..) hk]
  · rw [Table.total_insert _ (a := Debit.mk ..) (hnone _), total_expire, ← h.used]
    refine (preConsumeSubscription_used hr hp id).trans ?_
    simp [Debit.share, SubUsage.used, eq_comm (a := id)]

theorem Inv.expired (h : s.Inv) {subs : Table UserSubscription.id} (ids : List ℕ)
    (hused : ∀ k, subs.col UserSubscription.amountUsed k = if k ∈ ids then 0 else s.used k) :
    Inv ⟨⟨subs, s.db.records⟩, s.expire ids⟩ :=
  ⟨fun r => (find_expire s ids r).trans (h.linked r), fun id => by
    rw [total_expire, ← h.used]
    exact hused id⟩

theorem Inv.reset (h : s.Inv) (id : ℕ) (env : SubscriptionEnv) : (s.step (.reset id env)).Inv := by
  have hkeep : Inv ⟨s.db, s.expire []⟩ := h.expired [] fun k => by simp [SubUsage.used]
  rcases hf : s.db.subs.find id with _ | sub <;>
    simp [step, resetSubscription, resetDueRows, hf]
  · exact hkeep
  obtain rfl := key_of_find hf
  by_cases hd : 0 < sub.nextResetTime ∧ sub.nextResetTime ≤ env.now ∧ sub.status = .active
  · rcases hp : env.plan sub.planId with err | plan
    · simpa [hd, resetDue, hp] using hkeep
    · rcases hm : maybeResetUserSubscriptionWithPlanTx env sub plan with _ | ⟨sub', saved⟩
      · simpa [hd, hm] using h
      · have hrow := h.expired (if plan.resets env sub then [sub.id] else []) fun k => by
          rw [col_saveReset hf hm k]
          by_cases hr : plan.resets env sub = true <;> simp [hr, SubUsage.used]
        simp only [hd, if_true, hm, Option.map_some, true_and, resetDue, hp]
        cases saved <;> exact hrow
  · have hd' : ¬(0 < sub.nextResetTime ∧ sub.nextResetTime ≤ env.now ∧ sub.status = .active ∧
        resetDue env sub = true) := fun hr => hd ⟨hr.1, hr.2.1, hr.2.2.1⟩
    simpa only [hd, hd', if_false] using hkeep

theorem Inv.adjusted (h : s.Inv) (hd : s.debits.find r = some d)
    (hrec : ∀ r, (db.records.find r).map userSubscriptionId =
      (s.db.records.find r).map userSubscriptionId)
    (hused : ∀ id, db.subs.col amountUsed id =
      s.used id + if id = d.subscription then delta else 0) :
    Inv ⟨db, s.debits.put (d.move delta)⟩ := by
  have hkey : s.debits.find (d.move delta).requestId = some d := by
    rw [move_requestId, key_of_find hd]
    exact hd
  refine ⟨fun k => ?_, fun id => ?_⟩
  · rw [map_find_put _ hkey rfl, h.linked, hrec]
  · rw [total_put _ hkey, share_move, ← h.used]
    refine (hused id).trans ?_
    omega

theorem col_shift {t : Table UserSubscription.id} {id : ℕ} {sub : UserSubscription}
    (hf : t.find id = some sub) (hd : 0 ≤ t.col UserSubscription.amountUsed id + delta) (k : ℕ) :
    (t.put (sub.shift delta)).col UserSubscription.amountUsed k =
      t.col UserSubscription.amountUsed k + if k = id then delta else 0 := by
  obtain rfl := Table.key_of_find hf
  rw [col_of_find hf] at hd
  rw [col_put amountUsed (a := sub.shift delta) hf, shift_id, shift_used]
  split_ifs <;> omega

theorem Inv.settle (h : s.Inv) {requestId : String} {err : Option String}
    (hc : s.uncut (.settle requestId delta err)) : (s.step (.settle requestId delta err)).Inv := by
  rcases hd : s.debits.find requestId with _ | d <;> simp only [step, hd]
  · exact h
  simp only [uncut, hd, Option.all_some, decide_eq_true_eq] at hc
  rcases hp : postConsumeUserSubscriptionDelta s.db d.subscription delta err with e | db
  · exact h
  rcases eq_or_ne delta 0 with rfl | hne
  · simp only [postConsumeUserSubscriptionDelta] at hp
    split_ifs at hp
    cases hp
    exact h.adjusted hd (fun _ => rfl) fun id => by simp [SubUsage.used]
  · obtain ⟨sub, hsub, rfl⟩ := postConsume_ok hne hp
    exact h.adjusted hd (fun _ => rfl) (col_shift hsub hc)

theorem Inv.refund (h : s.Inv) {requestId : String} {f : RefundFaults}
    (hc : s.uncut (.refund requestId f)) : (s.step (.refund requestId f)).Inv := by
  obtain ⟨hsubs, hrecs⟩ := refundPreConsume_moves s.db requestId f (Prod.eta _).symm
  simp only [step]
  generalize (refundSubscriptionPreConsume s.db requestId f).1 = db at hsubs hrecs ⊢
  have hlink : ∀ r, (db.records.find r).map userSubscriptionId =
      (s.db.records.find r).map userSubscriptionId := by
    intro r
    rcases hrecs with he | ⟨record, hr, he⟩ <;> rw [he]
    rw [← key_of_find hr] at hr
    exact map_find_put _ (t := s.db.records) (a := { record with status := .refunded })
      (r := record) hr rfl r
  rcases hsubs with ⟨hz, he⟩ | ⟨record, sub, hr, hst, ha, hsub, he⟩
  · rw [hz, neg_zero]
    rcases hd : s.debits.find requestId with _ | d
    · exact ⟨fun r => (h.linked r).trans (hlink r).symm, fun id => by
        rw [← h.used, SubUsage.used, he, SubUsage.used]⟩
    · exact h.adjusted hd hlink fun id => by simp [he, SubUsage.used]
  · obtain ⟨d, hd, hid⟩ := h.exists_debit hr
    simp only [uncut, hr, hst, Option.all_some, decide_false, Bool.false_or,
      decide_eq_true_eq] at hc
    rw [hd, ha]
    refine h.adjusted hd hlink fun id => ?_
    rw [he, hid]
    exact col_shift hsub (by rw [SubUsage.used] at hc; omega) id

theorem Inv.step (h : s.Inv) (hc : s.uncut e) : (s.step e).Inv := by
  cases e with
  | preConsumeUser requestId userId amount env f =>
    exact (step_preConsume h h.preConsumed requestId userId amount env f).1
  | preConsumeTeam requestId teamId amount env f =>
    exact (step_preConsume h h.preConsumed requestId teamId amount env f).2
  | settle => exact h.settle hc
  | refund => exact h.refund hc
  | reset id env => exact h.reset id env

theorem currentNet_add_late (s : SubUsage) (id : ℕ) :
    s.currentNet id + s.late id = s.debits.total (share id) := by
  rw [currentNet, late, ← total_add]
  refine total_congr fun d _ => ?_
  by_cases hd : d.subscription = id <;> by_cases hc : d.current = true <;>
    simp [share, hd, hc]

/-- No request got back more than it was debited, and none of an earlier period has moved. -/
def Timely (s : SubUsage) : Prop :=
  ∀ d ∈ s.debits.rows, (d.current = true → 0 ≤ d.net) ∧ (d.current = false → d.late = 0)

theorem Timely.late_eq (h : s.Timely) (id : ℕ) : s.late id = 0 := by
  refine total_eq_zero fun d hd => ?_
  split_ifs with hc
  · exact (h d hd).2 (by simpa using hc.2)
  · rfl

theorem Timely.net_le_used (h : s.Timely) (hi : s.Inv)
    (hd : s.debits.find r = some d) (hc : d.current = true) : d.net ≤ s.used d.subscription := by
  have hshare : ∀ a ∈ s.debits.rows, 0 ≤ a.share d.subscription := by
    intro a ha
    unfold share
    split_ifs with _ hac
    · exact (h a ha).1 hac
    · exact ((h a ha).2 (by simpa using hac)).ge
    · exact le_rfl
  have hle := le_total hshare (mem_of_find hd)
  rw [← hi.used] at hle
  simpa [share, hc] using hle

theorem Timely.uncut (h : s.Timely) (hi : s.Inv) (hp : s.inPeriod e) : s.uncut e := by
  cases e with
  | settle requestId =>
    rcases hd : s.debits.find requestId with _ | d <;>
      simp only [uncut, inPeriod, hd, Option.all_none, Option.all_some,
        Bool.and_eq_true, decide_eq_true_eq] at hp ⊢
    have := h.net_le_used hi hd hp.1
    omega
  | refund requestId =>
    rcases hr : s.db.records.find requestId with _ | record <;>
      simp only [uncut, inPeriod, hr, Option.all_none, Option.all_some,
        Bool.or_eq_true, decide_eq_true_eq] at hp ⊢
    obtain ⟨d, hd, hid⟩ := hi.exists_debit hr
    refine hp.imp_right fun hp => ?_
    simp only [hd, Option.all_some, Bool.and_eq_true, decide_eq_true_eq] at hp
    rw [← hid]
    exact hp.2.trans (h.net_le_used hi hd hp.1)
  | preConsumeUser => rfl
  | preConsumeTeam => rfl
  | reset => rfl

theorem Timely.expired (h : s.Timely) (db : Subscriptions) (ids : List ℕ) :
    Timely ⟨db, s.expire ids⟩ := by
  intro d hd
  obtain ⟨d, hmem, rfl⟩ := List.mem_map.1 hd
  unfold Debit.expire
  split_ifs
  · exact ⟨fun hc => absurd hc (by simp), fun _ => rfl⟩
  · exact h d hmem

theorem Timely.preConsumed (h : s.Timely) (env : SubscriptionEnv) (owner : PreConsumeOwner)
    (f : PreConsumeFaults) (requestId : String) (amount : ℤ) :
    (s.preConsumed env owner requestId amount
      (preConsumeSubscription env owner f requestId amount s.db)).Timely := by
  rcases preConsumed_cases s env owner f requestId amount with he | ⟨db, r, hr, hp, he⟩ <;> rw [he]
  · exact h
  intro d hd
  rcases mem_insert hd with hd | rfl
  · exact h.expired db _ d hd
  · exact ⟨fun _ => (preConsumeSubscription_loop hr hp).1.le, fun hc => absurd hc.symm
      Bool.false_ne_true⟩

theorem Timely.moved (h : s.Timely)
    (hd : s.debits.find r = some d) (hm : delta = 0 ∨ d.current = true ∧ 0 ≤ d.net + delta) :
    Timely ⟨db, s.debits.put (d.move delta)⟩ := by
  intro a ha
  rcases mem_put ha with ha | ⟨rfl, -⟩
  · exact h a ha
  · rcases hm with rfl | ⟨hc, hn⟩
    · simpa [move] using h d (mem_of_find hd)
    · exact ⟨fun _ => hn, fun hf => absurd (hc.symm.trans hf).symm Bool.false_ne_true⟩

theorem Timely.step (h : s.Timely) (hp : s.inPeriod e) : (s.step e).Timely := by
  cases e with
  | preConsumeUser requestId userId amount env f =>
    exact (step_preConsume h h.preConsumed requestId userId amount env f).1
  | preConsumeTeam requestId teamId amount env f =>
    exact (step_preConsume h h.preConsumed requestId teamId amount env f).2
  | settle requestId delta err =>
    rcases hd : s.debits.find requestId with _ | d <;> simp only [step, hd]
    · exact h
    simp only [inPeriod, hd, Option.all_some, Bool.and_eq_true, decide_eq_true_eq] at hp
    rcases postConsumeUserSubscriptionDelta s.db d.subscription delta err with e | db
    · exact h
    · exact h.moved hd (.inr hp)
  | refund requestId f =>
    obtain ⟨hsubs, -⟩ := refundPreConsume_moves s.db requestId f (Prod.eta _).symm
    rcases hd : s.debits.find requestId with _ | d <;> simp only [step, hd]
    · exact h
    rcases hsubs with ⟨hz, -⟩ | ⟨record, -, hr, hst, ha, -⟩
    · exact h.moved hd (.inl (by rw [hz, neg_zero]))
    · simp only [inPeriod, hr, hd, hst, Option.all_some, decide_false, Bool.false_or,
        Bool.and_eq_true, decide_eq_true_eq] at hp
      exact h.moved hd (.inr ⟨hp.1, by omega⟩)
  | reset id env =>
    simp only [step]
    rcases resetSubscription env s.db id with _ | db
    · exact h
    · exact h.expired db _

/-- Where no adjustment is cut off at zero, usage is what the requests of the period have been
debited and what earlier ones have moved since the reset. -/
theorem used_eq_currentNet {db : Subscriptions} (hu : db.unused) (es : List UsageEvent) (id : ℕ) :
    let s := run step (init db) es
    (Along step (fun s e => s.uncut e) (init db) es → s.used id = s.currentNet id + s.late id) ∧
      (Along step (fun s e => s.inPeriod e) (init db) es → s.used id = s.currentNet id) := by
  refine ⟨fun ha => ?_, fun ha => ?_⟩
  · have hi := ha.run_inv (I := Inv) (fun _ _ h hc => h.step hc) (inv_init hu)
    rw [currentNet_add_late, hi.used]
  · obtain ⟨hi, ht⟩ := ha.run_inv (I := fun s => s.Inv ∧ s.Timely)
      (fun _ _ h hp => ⟨h.1.step (h.2.uncut h.1 hp), h.2.step hp⟩)
      ⟨inv_init hu, fun d hd => absurd hd List.not_mem_nil⟩
    rw [hi.used, ← currentNet_add_late, ht.late_eq, add_zero]

/-- A plan whose periods last five hundred seconds, at a time. -/
def periodEnv (now : ℤ) : SubscriptionEnv := ⟨now, ⟨id, id, id⟩, fun _ => .ok ⟨.custom, 500⟩, 5⟩

def periodSubs : Subscriptions where
  subs := ⟨[⟨1, 7, 0, 1, 100, 0, 0, 2000, .active, 0, 500⟩], List.nodup_singleton _⟩
  records := ⟨[], List.nodup_nil⟩

def settledInPeriod : List UsageEvent :=
  [.preConsumeUser "a" 7 30 (periodEnv 100) noPreConsumeFaults, .settle "a" (-10) none,
    .reset 1 (periodEnv 600), .preConsumeUser "b" 7 20 (periodEnv 600) noPreConsumeFaults,
    .settle "b" 5 none]

theorem used_after_settledInPeriod : let s := run step (init periodSubs) settledInPeriod
    s.used 1 = 25 ∧ s.used 1 = s.currentNet 1 :=
  ⟨by decide, (used_eq_currentNet (by decide) settledInPeriod 1).2 (by decide)⟩

def refundedLate : List UsageEvent :=
  [.preConsumeUser "a" 7 30 (periodEnv 100) noPreConsumeFaults, .reset 1 (periodEnv 600),
    .preConsumeUser "b" 7 20 (periodEnv 600) noPreConsumeFaults,
    .refund "a" ⟨none, none, none⟩]

theorem refund_after_reset_takes_usage : let s := run step (init periodSubs) refundedLate
    periodSubs.unused ∧ s.currentNet 1 = 20 ∧ s.used 1 = 0 := by
  decide

end SubUsage

end AggreApi
