import AggreApi.Proofs.SubscriptionUsage

/-!
# A pre-consume is given back once

A refund adjusts the subscription in a transaction of its own and marks the record in another. Where
the save fails the adjustment stays, the record still reads consumed, and the next attempt takes it
back again.
-/

namespace AggreApi

namespace SubUsage

variable {s : SubUsage}

variable {db db' : Subscriptions} {id : ℕ}

theorem postConsume_records {delta : ℤ} {err : Option String}
    (h : postConsumeUserSubscriptionDelta db id delta err = .ok db') :
    db'.records = db.records := by
  rcases eq_or_ne delta 0 with rfl | hd
  · simp only [postConsumeUserSubscriptionDelta] at h
    split_ifs at h
    rw [Except.ok.inj h]
  · obtain ⟨sub, -, rfl⟩ := postConsume_ok hd h
    rfl

theorem resetSubscription_records {env : SubscriptionEnv}
    (h : resetSubscription env db id = some db') : db'.records = db.records := by
  simp only [resetSubscription] at h
  split at h
  · split at h
    · split at h
      · obtain ⟨r, -, rfl⟩ := Option.map_eq_some_iff.1 h
        split_ifs <;> rfl
      · rw [Option.some.inj h]
    · rw [Option.some.inj h]
  · rw [Option.some.inj h]

def RecordKept (requestId : String)
    (before after : Table SubscriptionPreConsumeRecord.requestId) : Prop :=
  after.find requestId = before.find requestId ∨
    before.find requestId = none ∧ ∃ record, after.find requestId = some record ∧
      record.status = .consumed ∧ 0 < record.preConsumed

theorem recordKept_preConsumed (s : SubUsage) (env : SubscriptionEnv) (owner : PreConsumeOwner)
    (f : PreConsumeFaults) (r : String) (amount : ℤ) (requestId : String) :
    RecordKept requestId s.db.records (s.preConsumed env owner r amount
      (preConsumeSubscription env owner f r amount s.db)).db.records := by
  rcases preConsumed_cases s env owner f r amount with he | ⟨db, res, hr, hp, he⟩ <;> rw [he]
  · exact .inl rfl
  obtain ⟨ha, -, -, userId, hrec⟩ := preConsumeSubscription_ok hr hp
  simp only [hrec]
  rcases eq_or_ne requestId r with rfl | hne
  · exact .inr ⟨hr, _, Table.find_insert_self (t := s.db.records) hr, rfl, ha⟩
  · exact .inl (Table.find_insert_of_ne (a := SubscriptionPreConsumeRecord.mk ..) _ hne)

theorem recordKept_step (s : SubUsage) (e : UsageEvent) (requestId : String) :
    (∃ f, e = .refund requestId f) ∨ RecordKept requestId s.db.records (s.step e).db.records := by
  cases e with
  | preConsumeUser r userId amount env f =>
    exact .inr (step_preConsume (I := fun s' => RecordKept requestId s.db.records s'.db.records)
      (.inl rfl) (fun env owner f r amount => recordKept_preConsumed s env owner f r amount _)
      r userId amount env f).1
  | preConsumeTeam r teamId amount env f =>
    exact .inr (step_preConsume (I := fun s' => RecordKept requestId s.db.records s'.db.records)
      (.inl rfl) (fun env owner f r amount => recordKept_preConsumed s env owner f r amount _)
      r teamId amount env f).2
  | settle r delta err =>
    refine .inr (.inl ?_)
    rcases hd : s.debits.find r with _ | d <;> simp only [step, hd]
    rcases hp : postConsumeUserSubscriptionDelta s.db d.subscription delta err with e | db
    · rfl
    · simp [postConsume_records hp]
  | refund r f =>
    rcases eq_or_ne r requestId with rfl | hne
    · exact .inl ⟨f, rfl⟩
    refine .inr (.inl ?_)
    obtain ⟨-, hrecs⟩ := refundPreConsume_moves s.db r f (Prod.eta _).symm
    simp only [step]
    rcases hrecs with he | ⟨record, hr, he⟩ <;> rw [he]
    rw [← Table.key_of_find hr] at hne
    exact Table.find_put_of_ne s.db.records (a := { record with status := .refunded }) hne.symm
  | reset id env =>
    refine .inr (.inl ?_)
    simp only [step]
    rcases hr : resetSubscription env s.db id with _ | db
    · rfl
    · simp [resetSubscription_records hr]

end SubUsage

section Refund

variable {db : Subscriptions} {requestId : String} {record : SubscriptionPreConsumeRecord}
  {f : RefundFaults}

theorem refundPreConsume_of_none (hr : db.records.find requestId = none) :
    ∃ e, refundSubscriptionPreConsume db requestId f = (db, .error e) := by
  unfold refundSubscriptionPreConsume
  split_ifs
  · exact ⟨_, rfl⟩
  · rcases f.find with _ | e <;> simp only [hr]
    · exact ⟨_, rfl⟩
    · exact ⟨_, rfl⟩

theorem refundPreConsume_of_refunded (hr : db.records.find requestId = some record)
    (hs : record.status = .refunded) : (refundSubscriptionPreConsume db requestId f).1 = db := by
  unfold refundSubscriptionPreConsume
  split_ifs
  · rfl
  · rcases f.find with _ | e <;> simp only [hr, hs, if_true]

theorem refundPreConsume_of_consumed (hr : db.records.find requestId = some record)
    (hc : record.status = .consumed) (hp : 0 < record.preConsumed) :
    (∃ e, refundSubscriptionPreConsume db requestId f = (db, .error e)) ∨
      refundedAmount db requestId f ≠ 0 ∧ (f.save = none →
        ∃ sub, db.subs.find record.userSubscriptionId = some sub ∧
          refundSubscriptionPreConsume db requestId f =
            (⟨db.subs.put (sub.shift (-record.preConsumed)),
              db.records.put { record with status := .refunded }⟩, .ok ())) := by
  by_cases hb : isBlank requestId = true
  · exact .inl ⟨_, by rw [refundSubscriptionPreConsume, if_pos hb]⟩
  rcases hff : f.find with _ | e
  · rcases ha : postConsumeUserSubscriptionDelta db record.userSubscriptionId
      (-record.preConsumed) f.adjust with e | db'
    · refine .inl ⟨e, ?_⟩
      simp [refundSubscriptionPreConsume, hb, hff, hr, hc, ha, not_le.2 hp]
    · refine .inr ⟨?_, fun hs => ?_⟩
      · simp only [refundedAmount, hb, hff, hr, hc, ha, not_le.2 hp, reduceCtorEq,
          Bool.false_eq_true, or_self, if_false]
        exact hp.ne'
      · obtain ⟨sub, hsub, rfl⟩ := postConsume_ok (by omega) ha
        refine ⟨sub, hsub, ?_⟩
        simp [refundSubscriptionPreConsume, hb, hff, hr, hc, ha, hs, not_le.2 hp]
  · refine .inl ⟨e, ?_⟩
    simp [refundSubscriptionPreConsume, hb, hff]

end Refund

namespace RefundRun

variable {requestId : String} {s : RefundRun}

def Inv (requestId : String) (s : RefundRun) : Prop :=
  match s.usage.db.records.find requestId with
  | none => s.back = 0 ∧ s.returned = false
  | some record => 0 < record.preConsumed ∧
      (record.status = .consumed ∧ s.back = 0 ∧ s.returned = false ∨
        record.status = .refunded ∧ s.back = record.preConsumed)

theorem Inv.idempotent (h : s.Inv requestId) : s.idempotent requestId := by
  unfold Inv at h
  unfold RefundRun.idempotent
  rcases hr : s.usage.db.records.find requestId with _ | record <;> simp only [hr] at h ⊢
  · exact h
  · obtain ⟨hp, ⟨-, hb, hret⟩ | ⟨-, hb⟩⟩ := h
    · exact ⟨by omega, fun hr => absurd (hret.symm.trans hr) Bool.false_ne_true⟩
    · exact ⟨hb.le, fun _ => hb⟩

theorem Inv.of_kept (h : s.Inv requestId) {usage : SubUsage}
    (hk : SubUsage.RecordKept requestId s.usage.db.records usage.db.records) :
    Inv requestId { s with usage := usage } := by
  unfold Inv at h ⊢
  rcases hk with he | ⟨hnone, record, he, hc, hp⟩ <;> simp only [he]
  · exact h
  · rw [hnone] at h
    exact ⟨hp, .inl ⟨hc, h⟩⟩

variable {f : RefundFaults}

theorem step_refund_same {res : Except String Unit}
    (h : refundSubscriptionPreConsume s.usage.db requestId f = (s.usage.db, res)) :
    (step requestId s (.refund requestId f)).usage.db = s.usage.db ∧
      (step requestId s (.refund requestId f)).back = s.back ∧
      (step requestId s (.refund requestId f)).returned = (s.returned || res.isOk) := by
  simp [step, SubUsage.step, h, usedFor, SubUsage.used]

theorem step_refund_marked {record : SubscriptionPreConsumeRecord}
    {sub : UserSubscription} (hr : s.usage.db.records.find requestId = some record)
    (hsub : s.usage.db.subs.find record.userSubscriptionId = some sub)
    (hu : record.preConsumed ≤ s.usage.used record.userSubscriptionId)
    (h : refundSubscriptionPreConsume s.usage.db requestId f =
      (⟨s.usage.db.subs.put (sub.shift (-record.preConsumed)),
        s.usage.db.records.put { record with status := .refunded }⟩, .ok ())) :
    (step requestId s (.refund requestId f)).usage.db.records.find requestId =
        some { record with status := .refunded } ∧
      (step requestId s (.refund requestId f)).back = s.back + record.preConsumed := by
  have huncut : 0 ≤ s.usage.db.subs.col UserSubscription.amountUsed record.userSubscriptionId +
      -record.preConsumed := by
    rw [SubUsage.used] at hu
    omega
  have hcol := SubUsage.col_shift hsub huncut record.userSubscriptionId
  simp only [step, if_true, SubUsage.step, h, usedFor, hr, SubUsage.used, Option.elim_some, hcol]
  obtain rfl := Table.key_of_find hr
  exact ⟨Table.find_put_self (a := { record with status := .refunded }) hr, by omega⟩

theorem Inv.refund (h : s.Inv requestId)
    (hc : s.careful requestId (.refund requestId f)) :
    (step requestId s (.refund requestId f)).Inv requestId := by
  unfold Inv at h ⊢
  rcases hr : s.usage.db.records.find requestId with _ | record <;> simp only [hr] at h
  · obtain ⟨e, hm⟩ := refundPreConsume_of_none (f := f) hr
    obtain ⟨hdb, hback, hret⟩ := step_refund_same hm
    rw [hdb, hback, hret, hr]
    exact ⟨h.1, by rw [h.2]; rfl⟩
  obtain ⟨hp, ⟨hst, hb, hn⟩ | ⟨hst, hb⟩⟩ := h
  · rcases refundPreConsume_of_consumed (f := f) hr hst hp with ⟨e, hm⟩ | ⟨ha, hm⟩
    · obtain ⟨hdb, hback, hret⟩ := step_refund_same hm
      rw [hdb, hback, hret, hr]
      exact ⟨hp, .inl ⟨hst, hb, by rw [hn]; rfl⟩⟩
    · simp only [careful, hr, ha, ne_eq, not_true, decide_false, Bool.false_or, Option.all_some,
        Bool.and_eq_true, decide_eq_true_eq] at hc
      obtain ⟨sub, hsub, hm⟩ := hm hc.1
      obtain ⟨hrec, hback⟩ := step_refund_marked hr hsub hc.2 hm
      rw [hrec, hback]
      exact ⟨hp, .inr ⟨rfl, by rw [hb, zero_add]⟩⟩
  · obtain ⟨hdb, hback, -⟩ := step_refund_same
      (Prod.ext (refundPreConsume_of_refunded (f := f) hr hst) rfl)
    rw [hdb, hback, hr]
    exact ⟨hp, .inr ⟨hst, hb⟩⟩

theorem Inv.step (h : s.Inv requestId) {e : UsageEvent} (hc : s.careful requestId e) :
    (step requestId s e).Inv requestId := by
  by_cases he : ∃ f, e = .refund requestId f
  · obtain ⟨f, rfl⟩ := he
    exact h.refund hc
  · have hk := (SubUsage.recordKept_step s.usage e requestId).resolve_left he
    have hs : RefundRun.step requestId s e = { s with usage := s.usage.step e } := by
      cases e with
      | refund _ f => exact if_neg fun hr => he ⟨f, by rw [hr]⟩
      | _ => rfl
    rw [hs]
    exact h.of_kept hk

/-- In every run whose refunds are careful, those of a request take back at most what it
pre-consumed, and all of it once one has returned. -/
theorem refunds_take_back_once {db : Subscriptions} (hr : db.records.find requestId = none)
    (es : List UsageEvent)
    (ha : Along (RefundRun.step requestId) (fun s e => s.careful requestId e) (init db) es) :
    (run (RefundRun.step requestId) (init db) es).idempotent requestId := by
  have hinit : (init db).Inv requestId := by
    simp [Inv, init, SubUsage.init, hr]
  exact (ha.run_inv (I := Inv requestId) (fun _ _ h hc => h.step hc) hinit).idempotent

def refundedOnSecondAttempt : List UsageEvent :=
  [.preConsumeUser "a" 7 30 noonEnv noPreConsumeFaults,
    .refund "a" ⟨none, some "deadlock", none⟩, .refund "a" ⟨none, none, none⟩]

theorem second_attempt_takes_back :
    let s := run (RefundRun.step "a") (init sampleSubs) refundedOnSecondAttempt
    s.back = 30 ∧ s.returned = true ∧ s.idempotent "a" :=
  ⟨by decide, by decide, refunds_take_back_once (by decide) refundedOnSecondAttempt (by decide)⟩

def refundedUnsaved : List UsageEvent :=
  [.preConsumeUser "a" 7 30 noonEnv noPreConsumeFaults,
    .refund "a" ⟨none, none, some "deadlock"⟩, .refund "a" ⟨none, none, none⟩]

/-- The pre-consume of thirty is taken back, and after it the twenty other requests have used. -/
theorem unsaved_refund_taken_twice :
    let s := run (RefundRun.step "a") (init sampleSubs) refundedUnsaved
    (s.usage.db.records.find "a").map SubscriptionPreConsumeRecord.preConsumed = some 30 ∧
      s.back = 50 ∧ s.returned = true ∧ ¬s.idempotent "a" := by
  refine ⟨by decide, by decide, by decide, fun h => ?_⟩
  exact absurd h.1 (by decide)

end RefundRun

end AggreApi
