import AggreApi.TaskBilling
import AggreApi.Proofs.BillingLedger

/-!
# A task returns what it was charged

As long as every settlement goes through, the quota in a task's row is what the task has been
charged, to the account the row names; so the poll that ends the task cannot return more than that,
and a refund returns all of it.
-/

namespace AggreApi

open Funding TaskBilling

namespace TaskBilling

variable {f : TaskBillingFaults} {task : Task} {delta : ℤ} {db : Db}

theorem taskAdjustFunding_ok {err : Option String} {db' : Db} (hd : delta ≠ 0)
    (hc : db.covers (-delta) task.account = true)
    (h : taskAdjustFunding task delta err db = .ok db') :
    Db.Moved task.account delta db db' := by
  unfold taskAdjustFunding at h
  unfold Task.account at hc ⊢
  split_ifs at h hc ⊢
  · exact Db.adjustSub_ok hd hc h
  · exact Db.adjustUserQuota_ok h

theorem taskAdjustTokenQuota_eq (f : TaskBillingFaults) (task : Task) (delta : ℤ) (db : Db) :
    ∃ t, taskAdjustTokenQuota f task delta db = db.chargeToken task.privateData.tokenId t := by
  unfold taskAdjustTokenQuota
  split_ifs
  · exact ⟨0, by simp⟩
  · split
    · exact ⟨_, Db.adjustTokenQuota_ok ‹_›⟩
    · exact ⟨0, by simp⟩

theorem refundTaskQuota_moved (f : TaskBillingFaults)
    (hc : db.covers task.quota task.account = true) :
    let r := refundTaskQuota f task db
    r.1.spent task.account = db.spent task.account - AggreApi.refundTaskQuota task (!r.2) ∧
      r.1.covers (task.quota - AggreApi.refundTaskQuota task (!r.2)) task.account = true := by
  intro r
  by_cases h0 : task.quota = 0
  · rw [show r = (db, true) by simp [r, refundTaskQuota, h0]]
    simpa [AggreApi.refundTaskQuota, h0] using hc
  rcases ha : taskAdjustFunding task (-task.quota) f.funding db with e | db₁
  · rw [show r = (db, false) by simp [r, refundTaskQuota, h0, ha]]
    simpa [AggreApi.refundTaskQuota] using hc
  · obtain ⟨t, ht⟩ := taskAdjustTokenQuota_eq f task (-task.quota) db₁
    rw [show r = (db₁.chargeToken task.privateData.tokenId t, true) by
      simp [r, refundTaskQuota, h0, ha, ht]]
    have hm := taskAdjustFunding_ok (by omega) (by rwa [neg_neg]) ha
    simp only [AggreApi.refundTaskQuota, Bool.not_true, Bool.false_eq_true, if_false,
      Db.chargeToken_spent, Db.chargeToken_covers, hm.spent]
    exact ⟨by omega, hm.covers _ hc⟩

theorem recalculateTaskQuota_moved (f : TaskBillingFaults) (actualQuota : ℤ)
    (hc : db.covers task.quota task.account = true) (hq : 0 ≤ task.quota) :
    let r := recalculateTaskQuota f task actualQuota db
    0 ≤ r.2.quota ∧
      r.1.spent task.account = db.spent task.account + (r.2.quota - task.quota) ∧
      r.1.covers r.2.quota task.account = true := by
  intro r
  by_cases h0 : actualQuota ≤ 0
  · rw [show r = (db, task) by simp [r, recalculateTaskQuota, h0]]
    exact ⟨hq, by simp, hc⟩
  by_cases h1 : actualQuota - task.quota = 0
  · rw [show r = (db, task) by simp [r, recalculateTaskQuota, h0, h1]]
    exact ⟨hq, by simp, hc⟩
  rcases ha : taskAdjustFunding task (actualQuota - task.quota) f.funding db with e | db₁
  · rw [show r = (db, task) by simp [r, recalculateTaskQuota, h0, h1, ha]]
    exact ⟨hq, by simp, hc⟩
  · obtain ⟨t, ht⟩ := taskAdjustTokenQuota_eq f task (actualQuota - task.quota) db₁
    rw [show r = (db₁.chargeToken task.privateData.tokenId t,
      { task with quota := actualQuota }) by simp [r, recalculateTaskQuota, h0, h1, ha, ht]]
    have hm := taskAdjustFunding_ok h1 (SessionRun.covers_mono hc (by omega)) ha
    simp only [Db.chargeToken_spent, Db.chargeToken_covers, hm.spent]
    refine ⟨by omega, trivial, ?_⟩
    have := hm.covers _ hc
    rwa [add_sub_cancel] at this

end TaskBilling

/-- What a source needs to take a difference. -/
def Funding.accepts (db : Db) (delta : ℤ) (err : Option String) : Funding → Bool
  | .wallet _ _ => delta = 0 || err.isNone
  | .subscription _ _ _ id _ => delta = 0 || err.isNone && id ≠ 0 &&
    (db.sub.subs.find id).any fun row =>
      row.amountTotal ≤ 0 || row.amountUsed + delta ≤ row.amountTotal
  | .team _ _ _ id _ => delta = 0 || err.isNone && id ≠ 0 &&
    (db.sub.subs.find id).any fun row =>
      row.amountTotal ≤ 0 || row.amountUsed + delta ≤ row.amountTotal

theorem Db.adjustUserQuota_none (db : Db) (id : ℕ) (delta : ℤ) :
    ∃ db', db.adjustUserQuota id delta none = .ok db' := by
  simp only [adjustUserQuota, decreaseUserQuota, increaseUserQuota, updateUserQuota]
  split_ifs
  all_goals first | omega | exact ⟨_, rfl⟩

theorem Funding.adjustSub_of_room {db : Db} {id : ℕ} {delta : ℤ} {err : Option String}
    (hd : delta ≠ 0) (he : err.isNone = true) (hid : id ≠ 0)
    (hroom : (db.sub.subs.find id).any (fun row =>
      row.amountTotal ≤ 0 || row.amountUsed + delta ≤ row.amountTotal) = true) :
    ∃ db', adjustSub db id delta err = .ok db' := by
  obtain rfl := Option.isNone_iff_eq_none.1 he
  obtain ⟨row, hrow, hle⟩ := (Option.any_eq_true _ _).1 hroom
  simp only [Bool.or_eq_true, decide_eq_true_eq] at hle
  have hadj : ∃ row', row.adjust delta = .ok row' := by
    simp only [UserSubscription.adjust]
    split_ifs
    all_goals first | omega | exact ⟨_, rfl⟩
  obtain ⟨row', hadj⟩ := hadj
  simp [adjustSub, postConsumeUserSubscriptionDelta, hid, hd, hrow, hadj, Except.map]

theorem Funding.settle_of_accepts {db db₀ : Db} {delta : ℤ} {err : Option String}
    {funding : Funding} (hd : delta ≠ 0) (hs : db₀.sub = db.sub)
    (h : funding.accepts db delta err = true) : ∃ db', funding.settle db₀ delta err = .ok db' := by
  cases funding <;>
    simp only [accepts, hd, decide_false, Bool.false_or, Bool.and_eq_true, decide_eq_true_eq] at h
  · obtain rfl := Option.isNone_iff_eq_none.1 h
    simp only [settle, if_neg hd]
    exact Db.adjustUserQuota_none db₀ _ _
  · simp only [settle, if_neg hd]
    exact adjustSub_of_room hd h.1.1 h.1.2 (hs ▸ h.2)
  · simp only [settle, if_neg hd]
    exact adjustSub_of_room hd h.1.1 h.1.2 (hs ▸ h.2)

namespace TaskLife

variable {cfg : BillingConfig} {info : RelayInfo}

def settles (s : TaskLife) (quota : ℤ) (f : SettleFaults) : Bool :=
  match s.session with
  | none => quota = 0 || f.funding.isNone
  | some session => session.funding.accepts s.db (quota - session.preConsumedQuota) f.funding

def record (db : Db) (s : TaskLife) : Option SubscriptionPreConsumeRecord :=
  s.session.bind fun session => session.funding.record db

/-- No price is negative, a charge is made under a fresh id, every settlement goes through, a
record can be saved, and the others leave the task's record and charge. -/
def careful (info : RelayInfo) (s : TaskLife) : TaskEvent → Prop
  | .attempt a => s.session = none → a.freeModel = false →
    0 ≤ a.quota ∧ s.db.sub.records.find info.requestId = none ∧
      ∀ row ∈ s.db.sub.subs.rows, 0 < row.id ∧ 0 ≤ row.amountUsed
  | .fail f => f.first.save = none ∧ f.second.save = none ∧ f.third.save = none
  | .submit _ quota f _ => 0 ≤ quota ∧ s.settles quota f = true
  | .others db => db.covers s.net (s.account info) = true ∧ s.record db = s.record s.db
  | _ => True

/-- A session that has been charged and not settled. -/
structure Pending (info : RelayInfo) (db : Db) (net : ℤ) (session : BillingSession) : Prop where
  amount : session.preConsumedQuota = net
  consumed : session.tokenConsumed = net
  unsettled : session.settled = false
  unfunded : session.fundingSettled = false
  holds : session.funding.Holds db net
  owner : ∀ userId, session.funding.account = .wallet userId → userId = info.userId
  key : ∀ id, session.funding.account = .subscription id → 0 < id

def Booked (info : RelayInfo) (s : TaskLife) : Prop :=
  match s.phase with
  | .submitting => match s.session with
    | none => s.net = 0
    | some session => Pending info s.db s.net session
  | .inserted task => task.quota = s.net ∧ task.account = s.account info
  | .refunded => s.net = 0
  | _ => True

structure Inv (info : RelayInfo) (s : TaskLife) : Prop where
  nonneg : 0 ≤ s.net
  covers : s.db.covers s.net (s.account info) = true
  booked : s.Booked info

theorem Pending.congr {db db' : Db} {net : ℤ} {session : BillingSession}
    (h : Pending info db net session)
    (hr : session.funding.record db' = session.funding.record db) :
    Pending info db' net session :=
  ⟨h.amount, h.consumed, h.unsettled, h.unfunded, h.holds.congr hr, h.owner, h.key⟩

theorem Pending.relayedTask_account {db : Db} {net : ℤ} {session : BillingSession}
    (h : Pending info db net session) (quota : ℤ) (t : SubmittedTask) :
    (relayedTask info (some session) quota t).account = session.funding.account := by
  have howner := h.owner
  have hkey := h.key
  rcases hf : session.funding with ⟨u, c⟩ | ⟨r, u, own, id, pre⟩ | ⟨r, u, own, id, pre⟩ <;>
    simp only [hf, Funding.account, reduceCtorEq, Account.wallet.injEq,
      Account.subscription.injEq] at howner hkey <;>
    simp [Task.account, taskIsSubscription, relayedTask, syncRelayInfo, hf,
      Funding.source, Funding.account]
  · exact (howner u rfl).symm
  · exact (hkey id rfl).ne'
  · exact (hkey id rfl).ne'

theorem owner_of_respects {r : BillingReads} {preConsumedQuota : ℤ} {funding : Funding}
    (h : Respects r info preConsumedQuota funding.blank) {userId : ℕ}
    (ha : funding.account = .wallet userId) : userId = info.userId := by
  obtain ⟨u, c⟩ | _ | _ := funding
  · obtain rfl : u = userId := by simpa [Funding.account] using ha
    rcases Nat.eq_zero_or_pos info.tokenTeamId with ht | ht
    · rcases h.personal ht with hw | hw
      · simpa [Funding.blank, walletOf] using hw
      · exact absurd hw (by simp [Funding.blank, subscriptionOf])
    · exact absurd (h.team ht) (by simp [blank, teamOf])
  · exact absurd ha (by simp [Funding.account])
  · exact absurd ha (by simp [Funding.account])

theorem key_of_charged {env : SubscriptionEnv} {before after : Db} {amount : ℤ}
    {funding : Funding} (hkeys : ∀ row ∈ before.sub.subs.rows, 0 < row.id)
    (h : funding.Charged env before after amount) {id : ℕ}
    (ha : funding.account = .subscription id) : 0 < id := by
  have hrow : ∀ id, Debited env amount id before.sub.subs after.sub.subs → 0 < id := by
    rintro id ⟨⟨row, _, hrow, -⟩, -⟩
    rw [← Table.key_of_find hrow]
    exact hkeys row (Table.mem_of_find hrow)
  cases funding <;> simp only [Funding.account, reduceCtorEq, Account.subscription.injEq] at ha
  · exact ha ▸ hrow _ h.2
  · exact ha ▸ hrow _ h.2

theorem inv_others {s : TaskLife} (h : s.Inv info) {db : Db}
    (hc : s.careful info (.others db)) : Inv info { s with db := db } := by
  obtain ⟨hcovers, hrecord⟩ := hc
  refine ⟨h.nonneg, hcovers, ?_⟩
  have hb := h.booked
  unfold Booked at hb ⊢
  rcases hp : s.phase with _ | _ | task | _ | _ <;> simp only [hp] at hb ⊢
  · rcases hs : s.session with _ | session <;> simp only [hs] at hb ⊢
    · exact hb
    · exact hb.congr (by simpa [record, hs] using hrecord)
  · exact hb
  · exact hb

theorem inv_attempt {s : TaskLife} (h : s.Inv info) (hp : s.phase = .submitting)
    {a : TaskAttempt} (hc : s.careful info (.attempt a)) : (s.attempt cfg info a).Inv info := by
  have hb := h.booked
  unfold attempt
  split_ifs with hskip
  · exact ⟨h.nonneg, h.covers, by simpa [Booked, hp] using hb⟩
  simp only [Bool.or_eq_true, not_or, Option.isSome_iff_ne_none, ne_eq, not_not,
    Bool.not_eq_true] at hskip
  obtain ⟨hs, hfree⟩ := hskip
  obtain ⟨hquota, hfresh, hrows⟩ := hc hs hfree
  simp only [Booked, hp, hs] at hb
  split
  · exact h
  · refine ⟨h.nonneg, ?_, by simpa [Booked, hp, hs] using hb⟩
    simp [account, hs, Db.covers]
  · rename_i db session hopen
    obtain ⟨db₁, funding, hu, hresp, ho⟩ := newBillingSession_ok hopen
    have hopened := ho.opened (hu.sub ▸ hfresh) fun _ => .inl hquota
    have hspent := SessionRun.charged_net hopened.funding
    have hcovers := SessionRun.charged_covers
      (fun row hrow => (hrows row (hu.sub ▸ hrow)).2) hopened.funding
    rw [SessionRun.dueSpent_congr hu.userQuota hu.sub] at hspent
    have hnet : s.net + (db.spent session.funding.account -
        s.db.dueSpent a.env session.funding.account) = session.preConsumedQuota := by omega
    have hresp' := ho.blank ▸ hresp
    refine ⟨hnet ▸ hopened.nonneg, by simpa only [account, hnet] using hcovers, ?_⟩
    simp only [Booked, hp, hnet]
    exact ⟨rfl, hopened.tokenConsumed, hopened.unsettled, hopened.unfunded, hopened.holds,
      fun _ ha => show _ = ({ info with forcePreConsume := true } : RelayInfo).userId from
        owner_of_respects hresp' ha,
      fun _ ha => key_of_charged (fun row hrow => (hrows row (hu.sub ▸ hrow)).1)
        hopened.funding ha⟩

theorem Pending.refundJob {db : Db} {net : ℤ} {session session' : BillingSession}
    (h : Pending info db net session) (hn : 0 ≤ net)
    (hcov : db.covers net session.funding.account = true) {f : RefundJobFaults}
    (hf : f.first.save = none ∧ f.second.save = none ∧ f.third.save = none)
    (hs : session'.funding = session.funding ∧ session'.tokenConsumed = session.tokenConsumed) :
    ∃ back, 0 ≤ net - back ∧
      (session'.refundJob info f db).spent session.funding.account =
        db.spent session.funding.account - back ∧
      (session'.refundJob info f db).covers (net - back) session.funding.account = true := by
  have hsave : ∀ g ∈ [f.first, f.second, f.third], g.save = none := by simpa using hf
  obtain ⟨t, ht, -⟩ := BillingSession.refundJob_eq info f db (s := session')
    (by rw [hs.2, h.consumed]; exact hn)
  rw [ht, hs.1, Db.chargeToken_spent]
  simp only [Db.chargeToken_covers]
  rcases (refund_cases f.wallet (by simp) hsave hn h.holds hcov).2 with
    ⟨e, he⟩ | ⟨-, hspent, hcovers⟩
  · exact ⟨0, by omega, by rw [he]; simp, by rw [he]; simpa using hcov⟩
  · exact ⟨net, by omega, hspent, by simpa using hcovers⟩

theorem inv_fail {s : TaskLife} (h : s.Inv info) (hp : s.phase = .submitting)
    {f : RefundJobFaults} (hc : s.careful info (.fail f)) : (s.fail info f).Inv info := by
  have hb := h.booked
  have hcov := h.covers
  unfold fail
  rcases hs : s.session with _ | session <;> simp only [Booked, hp, hs, account] at hb hcov ⊢
  · exact ⟨h.nonneg, by simp [account, Db.covers], trivial⟩
  have hfund : session.refund.1.funding = session.funding ∧
      session.refund.1.tokenConsumed = session.tokenConsumed := by
    unfold BillingSession.refund
    split_ifs <;> exact ⟨rfl, rfl⟩
  obtain ⟨back, hn, hspent, hcovers⟩ := hb.refundJob h.nonneg hcov hc hfund
  split_ifs
  · have hnet : s.net + ((session.refund.1.refundJob info f s.db).spent session.funding.account -
        s.db.spent session.funding.account) = s.net - back := by omega
    refine ⟨by simpa only [charge, hnet] using hn, ?_, trivial⟩
    simpa only [charge, account, hnet, hfund.1] using hcovers
  · refine ⟨by simpa [charge] using h.nonneg, ?_, trivial⟩
    simpa [charge, account, hfund.1] using hcov

theorem Pending.settle {db : Db} {net quota : ℤ} {session : BillingSession}
    (h : Pending info db net session) {f : SettleFaults} (hq : 0 ≤ quota)
    (hcov : db.covers net session.funding.account = true)
    (hok : session.funding.accepts db (quota - session.preConsumedQuota) f.funding = true) :
    (session.settle info f quota db).2.1.funding = session.funding ∧
      (session.settle info f quota db).1.spent session.funding.account =
        db.spent session.funding.account + (quota - net) ∧
      (session.settle info f quota db).1.covers quota session.funding.account = true := by
  have hm : Db.Moved session.funding.account 0 db
      (session.countMember info f.member quota db) := BillingSession.countMember_moved _
  have hkeep := hm.covers _ hcov
  rw [add_zero] at hkeep
  rcases BillingSession.settle_cases h.unsettled h.unfunded with
    ⟨he, hdb, hs⟩ | ⟨hne, ⟨⟨e, he⟩, -⟩ | ⟨db₁, t, hsettle, hdb, -, hs⟩⟩
  · obtain rfl : quota = net := he.trans h.amount
    rw [hdb, hs, hm.spent]
    exact ⟨rfl, by omega, hkeep⟩
  · obtain ⟨db', hdb'⟩ := settle_of_accepts (by omega) BillingSession.countMember_sub hok
    exact absurd (he.symm.trans hdb') (by simp)
  · have hmv := settle_ok (by omega)
      (SessionRun.covers_mono hkeep (by rw [h.amount]; omega)) hsettle
    rw [hdb, hs, Db.chargeToken_spent, Db.chargeToken_covers, hmv.spent, hm.spent, h.amount]
    refine ⟨rfl, by omega, ?_⟩
    have := hmv.covers _ hkeep
    rwa [h.amount, add_sub_cancel] at this

theorem settleBilling_none (info : RelayInfo) (db : Db) {quota : ℤ} {f : SettleFaults}
    (hok : (quota = 0 || f.funding.isNone) = true) :
    (settleBilling info f quota db none).2.1 = none ∧
      (settleBilling info f quota db none).1.spent (.wallet info.userId) =
        db.spent (.wallet info.userId) + quota := by
  simp only [settleBilling, syncRelayInfo, sub_zero]
  split_ifs with h0
  · obtain hf : f.funding = none := by simpa [h0] using hok
    obtain ⟨db', hdb'⟩ := Db.adjustUserQuota_none db info.userId quota
    have hm := Db.adjustUserQuota_ok hdb'
    refine ⟨rfl, ?_⟩
    simp only [postConsumeQuota, reduceCtorEq, if_false, hf, hdb']
    split_ifs
    · exact hm.spent
    · split
      · rename_i ht
        rw [Db.adjustTokenQuota_ok ht, Db.chargeToken_spent, hm.spent]
      · exact hm.spent
  · exact ⟨rfl, by simp only; omega⟩

theorem inv_submitted {s : TaskLife} {t : SubmittedTask} {quota : ℤ} {f : SettleFaults}
    {insertErr : Bool} (hq : 0 ≤ quota)
    (haccount : (s.submit info t quota f insertErr).account info = s.account info)
    (hspent : (settleBilling info f quota s.db s.session).1.spent (s.account info) =
      s.db.spent (s.account info) + (quota - s.net))
    (hcovers : (settleBilling info f quota s.db s.session).1.covers quota (s.account info) = true)
    (htask : (relayedTask info s.session quota t).account = s.account info) :
    (s.submit info t quota f insertErr).Inv info := by
  have hnet : (s.submit info t quota f insertErr).net = quota := by
    simp only [submit, charge]
    omega
  refine ⟨hq.trans_eq hnet.symm, ?_, ?_⟩
  · rw [haccount, hnet]
    exact hcovers
  · unfold Booked
    rw [haccount, hnet]
    cases insertErr
    · exact ⟨rfl, htask⟩
    · trivial

theorem inv_submit {s : TaskLife} (h : s.Inv info) (hp : s.phase = .submitting)
    {t : SubmittedTask} {quota : ℤ} {f : SettleFaults} {insertErr : Bool}
    (hc : s.careful info (.submit t quota f insertErr)) :
    (s.submit info t quota f insertErr).Inv info := by
  obtain ⟨hq, hok⟩ := hc
  have hb := h.booked
  have hcov := h.covers
  rcases hs : s.session with _ | session <;>
    simp only [Booked, hp, hs, account, settles] at hb hcov hok
  · obtain ⟨hnone, hspent⟩ := settleBilling_none info s.db hok
    refine inv_submitted hq ?_ ?_ ?_ ?_ <;> simp only [account, hs]
    · simp [submit, charge, hs, hnone]
    · rw [hspent]
      omega
    · rfl
    · rfl
  · obtain ⟨hfunding, hspent, hcovers⟩ := hb.settle hq hcov hok
    refine inv_submitted hq ?_ ?_ ?_ ?_ <;> simp only [account, hs]
    · simp [submit, charge, hs, settleBilling, hfunding]
    · exact hspent
    · exact hcovers
    · exact hb.relayedTask_account quota t

theorem inv_polled {s : TaskLife} {db : Db} {net : ℤ} {phase : TaskPhase} {task : Task}
    (haccount : task.account = s.account info)
    (hnet : s.net + (db.spent task.account - s.db.spent task.account) = net) (hn : 0 ≤ net)
    (hcovers : db.covers net task.account = true)
    (hphase : phase = .closed ∨ phase = .refunded ∧ net = 0) :
    Inv info { s.charge task.account db with phase := phase } := by
  subst hnet
  refine ⟨hn, haccount ▸ hcovers, ?_⟩
  rcases hphase with rfl | ⟨rfl, h0⟩
  · trivial
  · exact h0

theorem inv_pollFailure {s : TaskLife} (h : s.Inv info) {task : Task}
    (hp : s.phase = .inserted task) (f : TaskBillingFaults) :
    (s.step cfg info (.pollFailure f)).Inv info := by
  have hb := h.booked
  simp only [Booked, hp] at hb
  obtain ⟨hquota, haccount⟩ := hb
  have hn := h.nonneg
  have hcov := h.covers
  rw [← haccount, ← hquota] at hcov
  obtain ⟨hspent, hcovers⟩ := refundTaskQuota_moved f hcov
  simp only [step, hp]
  refine inv_polled haccount (by omega) ?_ hcovers ?_ <;>
    rcases (TaskBilling.refundTaskQuota f task s.db).2 with _ | _ <;> simp [refundTaskQuota]
  omega

theorem inv_pollSuccess {s : TaskLife} (h : s.Inv info) {task : Task}
    (hp : s.phase = .inserted task) (actualQuota : ℤ) (f : TaskBillingFaults) :
    (s.step cfg info (.pollSuccess actualQuota f)).Inv info := by
  have hb := h.booked
  simp only [Booked, hp] at hb
  obtain ⟨hquota, haccount⟩ := hb
  have hcov := h.covers
  rw [← haccount, ← hquota] at hcov
  obtain ⟨hn, hspent, hcovers⟩ := recalculateTaskQuota_moved f actualQuota hcov
    (hquota ▸ h.nonneg)
  simp only [step, hp]
  exact inv_polled haccount (by omega) hn hcovers (.inl rfl)

theorem inv_step {s : TaskLife} (h : s.Inv info) {e : TaskEvent} (hc : s.careful info e) :
    (s.step cfg info e).Inv info := by
  cases e with
  | others db =>
    have : s.step cfg info (.others db) = { s with db := db } := by
      unfold step
      split <;> simp_all
    rw [this]
    exact inv_others h hc
  | attempt =>
    rcases hp : s.phase with _ | _ | task | _ | _ <;> simp only [step, hp] <;> try exact h
    exact inv_attempt h hp hc
  | fail =>
    rcases hp : s.phase with _ | _ | task | _ | _ <;> simp only [step, hp] <;> try exact h
    exact inv_fail h hp hc
  | submit =>
    rcases hp : s.phase with _ | _ | task | _ | _ <;> simp only [step, hp] <;> try exact h
    split_ifs
    · exact inv_submit h hp hc
    · exact h
  | pollFailure f =>
    rcases hp : s.phase with _ | _ | task | _ | _ <;> try simpa only [step, hp] using h
    exact inv_pollFailure h hp f
  | pollSuccess actualQuota f =>
    rcases hp : s.phase with _ | _ | task | _ | _ <;> try simpa only [step, hp] using h
    exact inv_pollSuccess h hp actualQuota f

def subscriptionRelay : RelayInfo := { sampleRelay with billingPreference := .subscriptionOnly }

def pricedAttempt : TaskAttempt :=
  ⟨noonEnv, sampleReads, ⟨noSessionFaults, noSessionFaults⟩, false, 30⟩

def submittedVideo : SubmittedTask :=
  ⟨1, "task_1", "video", 2, "generate", 900, "up_1", ⟨false, "model"⟩, []⟩

def failedTask (quota : ℤ) : List TaskEvent :=
  [.attempt pricedAttempt, .submit submittedVideo quota ⟨none, none, none⟩ false,
    .pollFailure ⟨none, false, none⟩]

/-- A task has not been given more than it was charged, its row holds the charge, and a refund
leaves nothing. -/
structure Balanced (info : RelayInfo) (s : TaskLife) : Prop where
  nonneg : 0 ≤ s.net
  recorded : ∀ task, s.phase = .inserted task →
    task.quota = s.net ∧ task.account = s.account info
  refunded : s.phase = .refunded → s.net = 0

theorem Inv.balanced {s : TaskLife} (h : s.Inv info) : s.Balanced info := by
  have hb := h.booked
  unfold Booked at hb
  refine ⟨h.nonneg, fun task hp => ?_, fun hp => ?_⟩
  · rw [hp] at hb
    exact hb
  · rw [hp] at hb
    exact hb

/-- In every run whose settlements go through, a task's books are right in every state. -/
theorem careful_task_balanced (cfg : BillingConfig) (info : RelayInfo) (db : Db)
    (es : List TaskEvent) (h : Along (step cfg info) (careful info) (init db) es) :
    Balanced info (run (step cfg info) (init db) es) := by
  have hinit : (init db).Inv info := ⟨le_rfl, rfl, rfl⟩
  exact (h.run_inv (I := Inv info) (fun _ _ hs he => inv_step hs he) hinit).balanced

theorem failed_task_refunded_in_full :
    ((run (step plainConfig subscriptionRelay) (init sampleDb) (failedTask 40)).phase = .refunded ∧
      (run (step plainConfig subscriptionRelay) (init sampleDb)
        ((failedTask 40).take 2)).net = 40) ∧
    Balanced subscriptionRelay
      (run (step plainConfig subscriptionRelay) (init sampleDb) (failedTask 40)) :=
  ⟨by decide, careful_task_balanced plainConfig subscriptionRelay sampleDb (failedTask 40)
    ⟨fun _ _ => ⟨by decide, rfl, by decide⟩, ⟨by decide, rfl⟩, trivial, trivial⟩⟩

/-- The settlement from thirty to ninety exceeds the subscription's total of a hundred, of which
fifty are used. -/
theorem failed_task_overpaid :
    (run (step plainConfig subscriptionRelay) (init sampleDb) ((failedTask 90).take 2)).net = 30 ∧
    (run (step plainConfig subscriptionRelay) (init sampleDb) ((failedTask 90).take 2)).phase =
      .inserted (relayedTask subscriptionRelay
        (some ⟨.subscription "req" 7 30 1 30, 30, 30, false, false, false⟩) 90 submittedVideo) ∧
    (run (step plainConfig subscriptionRelay) (init sampleDb) (failedTask 90)).phase = .refunded ∧
    (run (step plainConfig subscriptionRelay) (init sampleDb) (failedTask 90)).net = -20 := by
  decide

end TaskLife

end AggreApi
