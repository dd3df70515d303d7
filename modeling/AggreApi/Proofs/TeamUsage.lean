import AggreApi.TeamUsage
import AggreApi.Proofs.TaskBilling
import AggreApi.Proofs.SubscriptionRefund
import AggreApi.Lib.Procs

/-!
# The counter of a team's member

A `Settle` whose funding source fails has been counted all the same, and is counted again when it is
retried; and the billing of tasks does not know the counter at all. Elsewhere the counter has grown
by exactly what the member's requests took.
-/

namespace AggreApi

open BillingSession Funding TaskBilling Except

variable {delta a : ℤ} {err : Option String}

/-- The counters are as they were, and so are the records but for the request's own, which is
there if it was. -/
structure Db.Beside (requestId : String) (before after : Db) : Prop where
  members : after.memberUsed = before.memberUsed
  others : ∀ id, id ≠ requestId → after.sub.records.find id = before.sub.records.find id
  own : (before.sub.records.find requestId).isSome = true →
    (after.sub.records.find requestId).isSome = true

namespace Db.Beside

variable {requestId : String} {db db' db'' : Db}

theorem of_records (hm : db'.memberUsed = db.memberUsed)
    (hr : db'.sub.records = db.sub.records) : Beside requestId db db' :=
  ⟨hm, fun _ _ => by rw [hr], fun h => by rw [hr]; exact h⟩

theorem refl (requestId : String) (db : Db) : Beside requestId db db := of_records rfl rfl

theorem trans (h : Beside requestId db db') (h' : Beside requestId db' db'') :
    Beside requestId db db'' :=
  ⟨h'.members.trans h.members, fun id hid => (h'.others id hid).trans (h.others id hid),
    fun hs => h'.own (h.own hs)⟩

theorem chargeToken (db : Db) (id : ℕ) (t : ℤ) : Beside requestId db (db.chargeToken id t) :=
  of_records rfl rfl

variable {id : ℕ}

theorem adjustSub
    (h : adjustSub db id delta err = .ok db') : Beside requestId db db' := by
  unfold Funding.adjustSub at h
  rcases hp : postConsumeUserSubscriptionDelta db.sub id delta err with e | sub <;> rw [hp] at h
  · exact absurd h (by simp [Except.map])
  · obtain rfl := (ok.inj h).symm
    exact of_records rfl (SubUsage.postConsume_records hp)

theorem adjustUserQuota
    (h : db.adjustUserQuota id delta err = .ok db') : Beside requestId db db' := by
  unfold Db.adjustUserQuota at h
  split at h
  · rw [updateUserQuota_ok h]
    exact of_records rfl rfl
  · rw [updateUserQuota_ok h]
    exact of_records rfl rfl

theorem fundingSettle {funding : Funding}
    (h : funding.settle db delta err = .ok db') : Beside requestId db db' := by
  cases funding <;> simp only [Funding.settle] at h <;> split at h
  · rw [← ok.inj h]
    exact refl _ _
  · exact adjustUserQuota h
  · rw [← ok.inj h]
    exact refl _ _
  · exact adjustSub h
  · rw [← ok.inj h]
    exact refl _ _
  · exact adjustSub h

theorem taskAdjustFunding {task : Task}
    (h : taskAdjustFunding task delta err db = .ok db') : Beside requestId db db' := by
  unfold TaskBilling.taskAdjustFunding at h
  split at h
  · exact adjustSub h
  · exact adjustUserQuota h

variable (f : TaskBillingFaults) (task : Task)

theorem taskAdjustTokenQuota (delta : ℤ) (db : Db) :
    Beside requestId db (taskAdjustTokenQuota f task delta db) := by
  obtain ⟨t, ht⟩ := taskAdjustTokenQuota_eq f task delta db
  rw [ht]
  exact chargeToken db _ t

theorem refundTaskQuota (db : Db) :
    Beside requestId db (TaskBilling.refundTaskQuota f task db).1 := by
  unfold TaskBilling.refundTaskQuota
  split
  · exact refl _ _
  split
  · exact refl _ _
  · rename_i h
    exact (taskAdjustFunding h).trans (taskAdjustTokenQuota f task _ _)

theorem recalculateTaskQuota (actualQuota : ℤ) (db : Db) :
    Beside requestId db (recalculateTaskQuota f task actualQuota db).1 := by
  unfold TaskBilling.recalculateTaskQuota
  split
  · exact refl _ _
  simp only
  split
  · exact refl _ _
  split
  · exact refl _ _
  · rename_i h
    exact (taskAdjustFunding h).trans (taskAdjustTokenQuota f task _ _)

end Db.Beside

theorem refundPreConsume_records (db : Subscriptions) (requestId : String) (f : RefundFaults) :
    (refundSubscriptionPreConsume db requestId f).1.records = db.records ∨
      ∃ record record', db.records.find requestId = some record ∧ record'.requestId = requestId ∧
        (refundSubscriptionPreConsume db requestId f).1.records = db.records.put record' := by
  unfold refundSubscriptionPreConsume
  split
  · exact .inl rfl
  split
  · exact .inl rfl
  · exact .inl rfl
  rename_i record hf hr
  split
  · exact .inl rfl
  simp only
  split
  · exact .inl rfl
  rename_i db₁ hadjusted
  have hrec : db₁.records = db.records := by
    split at hadjusted
    · rw [← ok.inj hadjusted]
    · exact SubUsage.postConsume_records hadjusted
  split
  · exact .inl hrec
  · refine .inr ⟨record, { record with status := .refunded }, hr, ?_, by rw [hrec]⟩
    have hkey := Table.key_of_find hr
    exact hkey

theorem Db.Beside.refundPreConsume (db : Db) (requestId : String) (f : RefundFaults) :
    Db.Beside requestId db
      { db with sub := (refundSubscriptionPreConsume db.sub requestId f).1 } := by
  rcases refundPreConsume_records db.sub requestId f with h | ⟨record, record', hr, hkey, h⟩
  · exact of_records rfl h
  · refine ⟨rfl, fun id hid => ?_, fun _ => ?_⟩
    · simp only [h]
      exact Table.find_put_of_ne _ (by rw [hkey]; exact hid)
    · simp only [h]
      rw [← hkey] at hr ⊢
      rw [Table.find_put_self (a := record') hr]
      rfl

theorem Db.Beside.refundWithRetry (requestId : String) : ∀ (db : Db) (fs : List RefundFaults),
    Db.Beside requestId db { db with sub := (AggreApi.refundWithRetry db.sub requestId fs).1 }
  | db, [] => refl _ _
  | db, [f] => refundPreConsume db requestId f
  | db, f :: f' :: fs => by
    have hfirst := refundPreConsume db requestId f
    simp only [AggreApi.refundWithRetry]
    rcases hr : refundSubscriptionPreConsume db.sub requestId f with ⟨sub, e | u⟩ <;>
      rw [hr] at hfirst
    · exact hfirst.trans (refundWithRetry requestId { db with sub := sub } (f' :: fs))
    · exact hfirst

section Open

variable {cfg : BillingConfig} {env : SubscriptionEnv} {reads : BillingReads} {info : RelayInfo}
  {db db' : Db} {quota : ℤ} {session : BillingSession}

variable {f : SessionFaults}

section
variable (h : tryTeam cfg env reads f info quota db = some (db', .ok session))
include h

theorem tryTeam_ok :
    ∃ r, preConsumeTeamSubscription env f.preConsume info.requestId info.tokenTeamId
      (subConsume quota) db.sub = some (.ok (db'.sub, r)) := by
  unfold tryTeam at h
  split at h
  · cases h
  · cases h
  split at h
  · cases h
  simp only [preConsume, shouldTrust_team, Bool.false_eq_true, if_false,
    if_pos (subConsume_pos quota)] at h
  split at h
  · cases h
  rename_i db₁ hcharged
  have hsub : db₁.sub = db.sub := by
    rw [preConsumeTokenQuota_ok hcharged]
    rfl
  split at h
  · cases h
  · cases h
  rename_i hfunding
  obtain ⟨x, hx, hdb⟩ := exists_of_map_eq_ok hfunding
  obtain rfl : db' = _ := (congrArg Prod.fst (Option.some.inj h)).symm
  rw [Prod.mk.injEq] at hdb
  exact ⟨x.2, by rw [← hdb.1, ← hsub]; exact hx⟩

theorem tryTeam_records :
    isBlank info.requestId = false ∧ ∀ id record, db.sub.records.find id = some record →
      db'.sub.records.find id = some record := by
  obtain ⟨r, hr⟩ := tryTeam_ok h
  unfold preConsumeTeamSubscription at hr
  split at hr
  · cases hr
  refine ⟨?_, fun id record hid => ?_⟩
  · unfold preConsumeSubscription at hr
    split at hr
    · cases hr
    · rename_i hb
      simpa using hb
  · rcases hown : db.sub.records.find info.requestId with _ | existing
    · obtain ⟨-, -, -, userId, hrec⟩ := preConsumeSubscription_ok hown hr
      rw [hrec]
      exact Table.find_insert_of_some hid _
    · rw [preConsumeSubscription_of_record hown hr]
      exact hid

end

end Open

namespace BillingSession

variable {info : RelayInfo} {f : SettleFaults} {a : ℤ} {db : Db} {s : BillingSession}
  {requestId : String}

theorem settle_beside (hs : s.settled = false) :
    Db.Beside requestId (s.countMember info f.member a db) (s.settle info f a db).1 ∧
      (s.settle info f a db).2.1.funding = s.funding := by
  simp only [settle, hs, Bool.false_eq_true, if_false]
  generalize s.countMember info f.member a db = db₀
  split
  · exact ⟨.refl _ _, rfl⟩
  split
  · exact ⟨.refl _ _, rfl⟩
  rename_i db₁ hfunding
  have hb : Db.Beside requestId db₀ db₁ := by
    split at hfunding
    · rw [← ok.inj hfunding]
      exact .refl _ _
    · exact .fundingSettle hfunding
  split
  · exact ⟨hb, rfl⟩
  split
  · rename_i htoken
    rw [Db.adjustTokenQuota_ok htoken]
    exact ⟨hb.trans (.chargeToken db₁ _ _), rfl⟩
  · exact ⟨hb, rfl⟩

theorem countMember_of_playground (hp : info.isPlayground = true) (err : Option String) :
    s.countMember info err a db = db := by
  unfold countMember
  split
  · simp [hp]
  · rfl

theorem countMember_of_nonpos (ha : a ≤ 0) (err : Option String) :
    s.countMember info err a db = db := by
  unfold countMember
  split
  · simp [not_lt.2 ha]
  · rfl

theorem refundJob_beside {teamId id : ℕ} {own pre : ℤ}
    (hf : s.funding = .team requestId teamId own id pre) (f : RefundJobFaults) :
    Db.Beside requestId db (s.refundJob info f db) := by
  have hb : Db.Beside requestId db
      (s.funding.refund db f.wallet [f.first, f.second, f.third]).1 := by
    rw [hf, Funding.refund]
    split
    · exact .refl _ _
    · exact .refundWithRetry requestId db _
  unfold refundJob
  simp only
  split
  · split
    · rename_i htoken
      rw [Db.updateTokenQuota_ok htoken]
      exact hb.trans (.chargeToken _ _ _)
    · exact hb
  · exact hb

end BillingSession

theorem refundWithRetry_ok {db : Subscriptions} {requestId : String}
    {record : SubscriptionPreConsumeRecord} (hkey : isBlank requestId = false)
    (hr : db.records.find requestId = some record) (hc : record.status = .consumed)
    (hp : 0 < record.preConsumed)
    (hpost : ∃ db', postConsumeUserSubscriptionDelta db record.userSubscriptionId
      (-record.preConsumed) none = .ok db') :
    ∀ {fs : List RefundFaults}, (∀ f ∈ fs, f.save = none) →
      (∃ f ∈ fs, f.find = none ∧ f.adjust = none) → (refundWithRetry db requestId fs).2 = .ok ()
  | [], _, ⟨f, hf, _⟩ => absurd hf (by simp)
  | [f], hs, ⟨g, hg, hfind, hadj⟩ => by
    obtain rfl := List.mem_singleton.1 hg
    obtain ⟨db', hdb'⟩ := hpost
    simp [refundWithRetry, refundSubscriptionPreConsume, hkey, hfind, hr, hc, hadj, hdb', hs g hg,
      not_le.2 hp]
  | f :: f' :: fs, hs, ⟨g, hg, hfind, hadj⟩ => by
    simp only [refundWithRetry]
    rcases refundPreConsume_cases (hs f List.mem_cons_self) hr hc hp with ⟨e, he⟩ | ⟨db', -, he⟩
    · rw [he]
      refine refundWithRetry_ok hkey hr hc hp hpost
        (fun g hg => hs g (List.mem_cons_of_mem _ hg)) ?_
      rcases List.mem_cons.1 hg with rfl | hg'
      · obtain ⟨db', hdb'⟩ := hpost
        simp only [refundSubscriptionPreConsume, hkey, hfind, hr, hc, hadj, hdb',
          hs g hg, not_le.2 hp, reduceCtorEq, Bool.false_eq_true, if_false, Prod.mk.injEq,
          and_false] at he
      · exact ⟨g, hg', hfind, hadj⟩
    · rw [he]

namespace TeamRequest

/-- A `Settle` to the amount goes through and is not cut off, or there is nothing to count. -/
def settles (db : Db) (r : TeamRequest) (actualQuota : ℤ) (f : SettleFaults) : Bool :=
  let delta := actualQuota - r.session.preConsumedQuota
  (actualQuota = 0 || r.session.funding.accepts db delta f.funding) &&
    (delta = 0 || db.covers (-delta) r.account)

/-- One of the attempts of a refund meets no error and is not cut off, and each could save the
record. -/
def givesBack (db : Db) (r : TeamRequest) (f : RefundJobFaults) : Bool :=
  r.session.funding.accepts db (-r.session.preConsumedQuota) none &&
    db.covers r.session.preConsumedQuota r.account &&
    [f.first, f.second, f.third].all (·.save.isNone) &&
    [f.first, f.second, f.third].any fun g => g.find.isNone && g.adjust.isNone

/-- The actions in question, where the request counts. -/
def careful (db : Db) (r : TeamRequest) : TeamAction → Bool
  | .settle actualQuota f => r.info.isPlayground || r.session.settled ||
    !r.session.refunded && f.member.isNone && 0 ≤ actualQuota && r.settles db actualQuota f
  | .refund => true
  | .refundJob f => r.info.isPlayground || !r.job || r.givesBack db f
  | .refundTask _ quota _ => r.info.isPlayground || quota = 0
  | .recalculateTask _ quota actualQuota _ =>
    r.info.isPlayground || actualQuota ≤ 0 || actualQuota = quota

/-- A session that is open, or whose refund is under way, holds its charge. -/
structure Open (db : Db) (r : TeamRequest) : Prop where
  unfunded : r.session.fundingSettled = false
  job : r.session.refunded = r.job
  consumed : r.session.tokenConsumed = r.session.preConsumedQuota
  net : r.net = r.session.preConsumedQuota
  holds : r.session.funding.Holds db r.session.preConsumedQuota

def Booked (db : Db) (r : TeamRequest) : Prop :=
  if r.session.settled then r.job = false
  else r.Open db ∨ r.session.refunded = true ∧ r.job = false ∧ r.net = 0

/-- A request is charged to its team, has its record, and its books are right if it counts. -/
structure Kept (db : Db) (r : TeamRequest) : Prop where
  funding : ∃ teamId own id pre, r.session.funding = .team r.info.requestId teamId own id pre
  key : isBlank r.info.requestId = false
  record : (db.sub.records.find r.info.requestId).isSome = true
  booked : r.info.isPlayground = false → r.Booked db

/-- What an action does: the counters follow what the request has taken in the end, and the records
of the others stay. -/
structure Acts (db : Db) (r : TeamRequest) (db' : Db) (r' : TeamRequest) : Prop where
  info : r'.info = r.info
  others : ∀ id, id ≠ r.info.requestId → db'.sub.records.find id = db.sub.records.find id
  members : ∀ m, db'.memberUsed m = (db.memberUsed m).map (· + (r'.debited m - r.debited m))
  kept : r'.Kept db'

variable {db db' : Db} {r r' : TeamRequest}

theorem debited_of_playground (h : r.info.isPlayground = true) (m : ℕ × ℕ) : r.debited m = 0 := by
  simp [debited, countsFor, h]

theorem debited_of_unfinished (h : r.finished = false) (m : ℕ × ℕ) : r.debited m = 0 := by
  simp [debited, h]

theorem Kept.congr (h : r.Kept db) (hrec : db'.sub.records.find r.info.requestId =
    db.sub.records.find r.info.requestId) : r.Kept db' := by
  refine ⟨h.funding, h.key, hrec ▸ h.record, fun hp => ?_⟩
  have hbook := h.booked hp
  unfold Booked at hbook ⊢
  split_ifs at hbook ⊢
  · exact hbook
  refine hbook.imp_left fun ho => ⟨ho.unfunded, ho.job, ho.consumed, ho.net, ho.holds.congr ?_⟩
  obtain ⟨teamId, own, id, pre, hf⟩ := h.funding
  rw [hf]
  exact hrec

theorem Acts.of_beside (hk : r.Kept db) (hb : Db.Beside r.info.requestId db db')
    (hinfo : r'.info = r.info) (hfunding : r'.session.funding = r.session.funding)
    (hdebited : ∀ m, r'.debited m = r.debited m)
    (hbooked : r.info.isPlayground = false → r'.Booked db') : Acts db r db' r' where
  info := hinfo
  others := hb.others
  members m := by simp [hb.members, hdebited]
  kept := by
    refine ⟨?_, hinfo ▸ hk.key, hinfo ▸ hb.own hk.record, fun hp => hbooked (hinfo ▸ hp)⟩
    rw [hfunding, hinfo]
    exact hk.funding

theorem Acts.of_playground (hk : r.Kept db) (hp : r.info.isPlayground = true)
    (hb : Db.Beside r.info.requestId db db') (hinfo : r'.info = r.info)
    (hfunding : r'.session.funding = r.session.funding) : Acts db r db' r' := by
  refine .of_beside hk hb hinfo hfunding (fun m => ?_) fun hn => ?_
  · rw [debited_of_playground hp, debited_of_playground (by rw [hinfo]; exact hp)]
  · rw [hp] at hn
    cases hn

theorem Acts.refl (hk : r.Kept db) : Acts db r db r :=
  .of_beside hk (.refl _ _) rfl rfl (fun _ => rfl) hk.booked

@[simp] theorem charge_self (r : TeamRequest) (db : Db) : r.charge db db = r := by
  simp [charge]

theorem countMember_members (hk : r.Kept db) (hp : r.info.isPlayground = false)
    (ha : 0 ≤ a) (m : ℕ × ℕ) : (r.session.countMember r.info none a db).memberUsed m =
      (db.memberUsed m).map (· + if r.countsFor m then a else 0) := by
  obtain ⟨teamId, own, id, pre, hf⟩ := hk.funding
  rcases ha.eq_or_lt with rfl | hpos
  · simp [countMember_of_nonpos]
  simp only [countMember, hf, hpos, hp, and_self, if_true,
    Db.incrTeamMemberUsedQuota, countsFor, Bool.not_false, Bool.true_and, decide_eq_true_eq]
  by_cases hm : (r.info.tokenTeamId, r.info.userId) = m
  · subst hm
    simp
  · rw [Function.update_of_ne (Ne.symm hm)]
    simp [hm]

theorem acts_settled (hk : r.Kept db) (hp : r.info.isPlayground = false) (ha : 0 ≤ a)
    (hunfinished : r.finished = false) {session : BillingSession}
    (hb : Db.Beside r.info.requestId (r.session.countMember r.info none a db) db')
    (hspent : db'.spent r.account - db.spent r.account = a - r.net)
    (hfunding : session.funding = r.session.funding) (hsettled : session.settled = true)
    (hjob : r.job = false) : Acts db r db' { r.charge db db' with session := session } := by
  have hrec : (r.session.countMember r.info none a db).sub = db.sub :=
    countMember_sub (f := ⟨none, none, none⟩)
  refine ⟨rfl, fun id hid => by rw [hb.others id hid, hrec], fun m => ?_, ?_⟩
  · rw [hb.members, countMember_members hk hp ha, debited_of_unfinished hunfinished]
    have hnet : r.net + (db'.spent r.account - db.spent r.account) = a := by omega
    simp [debited, finished, hsettled, charge, hnet, countsFor]
  · refine ⟨?_, hk.key, hb.own (by rw [hrec]; exact hk.record), fun _ => ?_⟩
    · rw [hfunding]
      exact hk.funding
    · simp [Booked, hsettled, charge, hjob]

theorem acts_settle (hk : r.Kept db) {f : SettleFaults} (hc : r.careful db (.settle a f) = true) :
    Acts db r (r.act db (.settle a f)).1 (r.act db (.settle a f)).2 := by
  simp only [act]
  rcases hset : r.session.settled with _ | _
  swap
  · rw [settle_of_settled hset]
    simpa using Acts.refl hk
  obtain ⟨hb, hfund⟩ : Db.Beside r.info.requestId (r.session.countMember r.info f.member a db)
      (r.session.settle r.info f a db).1 ∧
      (r.session.settle r.info f a db).2.1.funding = r.session.funding :=
    settle_beside hset
  rcases hp : r.info.isPlayground with _ | _
  swap
  · rw [countMember_of_playground hp] at hb
    exact .of_playground hk hp hb rfl hfund
  simp only [careful, hp, hset, Bool.false_or, Bool.and_eq_true, Bool.not_eq_true',
    Option.isNone_iff_eq_none, decide_eq_true_eq, settles, Bool.or_eq_true] at hc
  obtain ⟨⟨⟨hrefunded, hmember⟩, ha⟩, haccepts, hcovers⟩ := hc
  have hopen : r.Open db := by
    have hbook := hk.booked hp
    simpa [Booked, hset, hrefunded] using hbook
  have hjob : r.job = false := hopen.job ▸ hrefunded
  have hunfinished : r.finished = false := by simp [finished, hset, hrefunded]
  have hmoved : Db.Moved r.account 0 db (r.session.countMember r.info f.member a db) :=
    countMember_moved _
  rw [hmember] at hb
  rcases settle_cases hset hopen.unfunded with
    ⟨he, hdb, hs⟩ | ⟨hne, ⟨⟨e, he⟩, hdb, hs⟩ | ⟨db₁, t, hsettle, hdb, -, hs⟩⟩
  · refine acts_settled hk hp ha hunfinished hb ?_ hfund (by rw [hs]) hjob
    rw [hdb, hmoved.spent, hopen.net]
    omega
  · rcases haccepts with rfl | haccepts
    · rw [hdb, hs, countMember_of_nonpos le_rfl]
      simpa using Acts.refl hk
    · obtain ⟨db', hdb'⟩ :=
        settle_of_accepts (by omega) countMember_sub haccepts
      exact absurd (he.symm.trans hdb') (by simp)
  · refine acts_settled hk hp ha hunfinished hb ?_ hfund (by rw [hs]) hjob
    have hcov := hmoved.covers _ (hcovers.resolve_left (by omega))
    rw [add_zero] at hcov
    have hmv := settle_ok (by omega) hcov hsettle
    rw [hdb, Db.chargeToken_spent, account, hmv.spent, ← account, hmoved.spent, hopen.net]
    omega

theorem acts_refund (hk : r.Kept db) : Acts db r (r.act db .refund).1 (r.act db .refund).2 := by
  simp only [act, BillingSession.refund]
  split
  · simpa using Acts.refl hk
  rename_i hopen
  simp only [Bool.or_eq_true, not_or, Bool.not_eq_true, Bool.not_eq_false'] at hopen
  obtain ⟨⟨hset, hrefunded⟩, -⟩ := hopen
  refine .of_beside hk (.refl _ _) rfl rfl (fun m => ?_) fun hp => ?_
  · rw [debited_of_unfinished (r := r) (by simp [finished, hset, hrefunded]),
      debited_of_unfinished (by simp [finished, hset])]
  · have hbook := hk.booked hp
    simp only [Booked, hset, hrefunded, Bool.false_eq_true, if_false, false_and, or_false,
      Bool.or_true] at hbook ⊢
    exact .inl ⟨hbook.unfunded, rfl, hbook.consumed, hbook.net, hbook.holds⟩

variable {f : RefundJobFaults}

theorem refundJob_spent (hk : r.Kept db) (ho : r.Open db)
    (hg : r.givesBack db f = true) :
    (r.session.refundJob r.info f db).spent r.account - db.spent r.account = -r.net := by
  simp only [givesBack, Bool.and_eq_true, List.all_eq_true, List.any_eq_true,
    Option.isNone_iff_eq_none] at hg
  obtain ⟨⟨⟨haccepts, hcovers⟩, hsave⟩, g, hmem, hfind, hadjust⟩ := hg
  obtain ⟨teamId, own, id, pre, hf⟩ := hk.funding
  have hholds := ho.holds
  rw [hf] at hholds
  obtain ⟨hpre, hpos, userId, hrec⟩ := hholds
  obtain ⟨t, ht, -⟩ := refundJob_eq r.info f db (s := r.session)
    (by rw [ho.consumed]; omega)
  rw [ht, Db.chargeToken_spent, account]
  rcases (refund_cases f.wallet (by simp) hsave hpos.le ho.holds hcovers).2 with
    ⟨e, he⟩ | ⟨-, hspent, -⟩
  · have hpost : ∃ sub, postConsumeUserSubscriptionDelta db.sub id
        (-r.session.preConsumedQuota) none = .ok sub := by
      obtain ⟨db', hdb'⟩ := settle_of_accepts (by omega) rfl haccepts
      rw [hf, Funding.settle, if_neg (by omega), Funding.adjustSub] at hdb'
      rcases hp : postConsumeUserSubscriptionDelta db.sub id (-r.session.preConsumedQuota) none
        with e | sub <;> rw [hp] at hdb'
      · exact absurd hdb' (by simp [Except.map])
      · exact ⟨sub, rfl⟩
    have hok := refundWithRetry_ok hk.key hrec rfl hpos hpost hsave ⟨g, hmem, hfind, hadjust⟩
    have hsnd := congrArg Prod.snd he
    rw [hf, Funding.refund, if_neg (by omega)] at hsnd
    exact absurd (hok.symm.trans hsnd) (by simp)
  · rw [hspent, ho.net]
    omega

theorem acts_refundJob (hk : r.Kept db)
    (hc : r.careful db (.refundJob f) = true) :
    Acts db r (r.act db (.refundJob f)).1 (r.act db (.refundJob f)).2 := by
  simp only [act]
  rcases hjob : r.job with _ | _
  · simpa using Acts.refl hk
  obtain ⟨teamId, own, id, pre, hf⟩ := hk.funding
  have hb : Db.Beside r.info.requestId db (r.session.refundJob r.info f db) :=
    refundJob_beside hf f
  simp only [if_true]
  rcases hp : r.info.isPlayground with _ | _
  swap
  · exact .of_playground hk hp hb rfl rfl
  have hbook := hk.booked hp
  rcases hset : r.session.settled with _ | _ <;>
    simp only [Booked, hset, hjob, if_true, Bool.false_eq_true, if_false, false_and, and_false,
      or_false, reduceCtorEq] at hbook
  have hrefunded : r.session.refunded = true := hbook.job.trans hjob
  have hspent := refundJob_spent hk hbook (by simpa [careful, hp, hjob] using hc)
  have hnet : r.net + ((r.session.refundJob r.info f db).spent r.account -
      db.spent r.account) = 0 := by omega
  refine .of_beside hk hb rfl rfl (fun m => ?_) fun _ => ?_
  · rw [debited_of_unfinished (r := r) (by simp [finished, hset, hjob])]
    simp [debited, charge, hnet]
  · simp [Booked, charge, hset, hrefunded, hnet]

theorem acts_of_careful (hk : r.Kept db) {a : TeamAction} (hc : r.careful db a = true) :
    Acts db r (r.act db a).1 (r.act db a).2 := by
  have htask : ∀ {db' : Db}, Db.Beside r.info.requestId db db' →
      (r.info.isPlayground = true ∨ db' = db) → Acts db r db' (r.charge db db') := by
    rintro db' hb (hp | rfl)
    · exact .of_playground hk hp hb rfl rfl
    · simpa using Acts.refl hk
  cases a with
  | settle => exact acts_settle hk hc
  | refund => exact acts_refund hk
  | refundJob => exact acts_refundJob hk hc
  | refundTask _ _ f =>
    simp only [careful, Bool.or_eq_true, decide_eq_true_eq] at hc
    refine htask (.refundTaskQuota f _ db) (hc.imp_right fun h0 => ?_)
    simp [act, TaskBilling.refundTaskQuota, task, relayedTask, h0]
  | recalculateTask _ _ actualQuota f =>
    simp only [careful, Bool.or_eq_true, decide_eq_true_eq, or_assoc] at hc
    refine htask (.recalculateTaskQuota f _ actualQuota db) (hc.imp_right fun h0 => ?_)
    simp only [act, recalculateTaskQuota]
    split
    · rfl
    · rename_i hpos
      have heq := h0.resolve_left hpos
      simp [task, relayedTask, heq]

end TeamRequest

namespace TeamUsage

/-- A new request has an id of its own, and each action is one of those in question. -/
def careful (s : TeamUsage) : TeamUsageEvent → Bool
  | .request _ _ _ info _ => (s.db.sub.records.find info.requestId).isNone
  | .act i a => (s.requests[i]?).all fun r => r.careful s.db a

/-- The requests are in order and have their ids to themselves, and each counter has grown by what
the requests have taken in the end. -/
structure Inv (before : Db) (s : TeamUsage) : Prop where
  kept : ∀ (i : ℕ) (r : TeamRequest), s.requests[i]? = some r → r.Kept s.db
  ids : ∀ (i j : ℕ) (r r' : TeamRequest), s.requests[i]? = some r → s.requests[j]? = some r' →
    r.info.requestId = r'.info.requestId → i = j
  counted : ∀ m, s.db.memberUsed m = (before.memberUsed m).map (· + s.debited m)

variable {cfg : BillingConfig} {before : Db} {s : TeamUsage}

theorem inv_init (db : Db) : Inv db (init db) :=
  ⟨fun i r h => by simp [init] at h, fun i j r r' h => by simp [init] at h,
    fun m => by simp [init, debited]⟩

theorem inv_act (h : s.Inv before) {i : ℕ} {a : TeamAction} (hc : s.careful (.act i a) = true) :
    (s.step cfg (.act i a)).Inv before := by
  simp only [step]
  rcases hi : s.requests[i]? with _ | r
  · exact h
  simp only [careful, hi, Option.all_some] at hc
  have hacts := TeamRequest.acts_of_careful (h.kept i r hi) hc
  simp only
  generalize r.act s.db a = x at hacts ⊢
  refine ⟨fun j w hj => ?_, fun j k w w' hj hk hid => ?_, fun m => ?_⟩
  · rcases getElem?_set_cases hj with ⟨rfl, rfl⟩ | ⟨hne, hj'⟩
    · exact hacts.kept
    · exact (h.kept j w hj').congr (hacts.others _ fun he => hne (h.ids j i w r hj' hi he))
  · rcases getElem?_set_cases hj with ⟨rfl, rfl⟩ | ⟨hne, hj'⟩ <;>
      rcases getElem?_set_cases hk with ⟨rfl, rfl⟩ | ⟨hne', hk'⟩
    · rfl
    · rw [hacts.info] at hid
      exact h.ids _ _ r w' hi hk' hid
    · rw [hacts.info] at hid
      exact h.ids _ _ w r hj' hi hid
    · exact h.ids j k w w' hj' hk' hid
  · rw [hacts.members, h.counted]
    simp only [debited, sum_map_set x.2 (TeamRequest.debited m) hi, Option.map_map]
    congr 1
    funext n
    simp only [Function.comp_apply]
    omega

variable {env : SubscriptionEnv} {reads : BillingReads} {f : OpenFaults} {info : RelayInfo}
  {quota : ℤ}

theorem kept_request {db db' : Db} {session : BillingSession}
    (hteam : 0 < info.tokenTeamId) (hfresh : db.sub.records.find info.requestId = none)
    (hopen : newBillingSession cfg env reads f info quota db = some (db', .ok session)) :
    (session.settled = false ∧ session.refunded = false) ∧ db'.memberUsed = db.memberUsed ∧
      (∀ id record, db.sub.records.find id = some record →
        db'.sub.records.find id = some record) ∧
      TeamRequest.Kept db' ⟨info, session, false,
        db'.spent session.funding.account - db.dueSpent env session.funding.account⟩ := by
  obtain ⟨db₁, funding, hu, hresp, ho⟩ := newBillingSession_ok hopen
  have hblank := ho.blank.trans (hresp.team hteam)
  have hopened := ho.opened (hu.sub ▸ hfresh) fun hw => by
    rw [hresp.team hteam] at hw
    exact absurd hw (by simp [teamOf, walletOf])
  rw [newBillingSession, if_pos hteam] at hopen
  obtain ⟨hkey, hrecords⟩ := tryTeam_records hopen
  have hnet := SessionRun.charged_net hopened.funding
  rw [SessionRun.dueSpent_congr hu.userQuota hu.sub] at hnet
  obtain ⟨own, id, pre, hf⟩ : ∃ own id pre,
      session.funding = .team info.requestId info.tokenTeamId own id pre := by
    rcases hs : session.funding with _ | _ | ⟨requestId, teamId, own, id, pre⟩ <;>
      simp only [hs, blank, teamOf, reduceCtorEq, team.injEq] at hblank
    obtain ⟨rfl, rfl, -⟩ := hblank
    exact ⟨own, id, pre, rfl⟩
  refine ⟨⟨hopened.unsettled, hopened.unrefunded⟩, hopened.member.trans hu.memberUsed, hrecords,
    ⟨_, own, id, pre, hf⟩, hkey, ?_, fun _ => ?_⟩
  · have hholds := hopened.holds
    rw [hf] at hholds
    obtain ⟨-, -, userId, hrec⟩ := hholds
    simp [hrec]
  · simp only [TeamRequest.Booked, hopened.unsettled, Bool.false_eq_true, if_false]
    exact .inl ⟨hopened.unfunded, hopened.unrefunded, hopened.tokenConsumed, hnet, hopened.holds⟩

theorem inv_request (h : s.Inv before)
    (hc : s.careful (.request env reads f info quota) = true) :
    (s.step cfg (.request env reads f info quota)).Inv before := by
  simp only [careful, Option.isNone_iff_eq_none] at hc
  simp only [step, request]
  split
  · exact h
  rename_i hteam
  have hundone : AllOrNothing _ _ (newBillingSession cfg env reads f info quota s.db) :=
    newBillingSession_opened
  rcases hopen : newBillingSession cfg env reads f info quota s.db with _ | ⟨db, e | session⟩ <;>
    rw [hopen] at hundone
  · exact h
  · exact ⟨fun i r hi => (h.kept i r hi).congr (by rw [hundone.sub]), h.ids,
      fun m => (congrFun hundone.memberUsed m).trans (h.counted m)⟩
  obtain ⟨⟨hset, href⟩, hmember, hrecords, hkept⟩ :=
    kept_request (Nat.pos_of_ne_zero hteam) hc hopen
  have hother : ∀ (i : ℕ) (r : TeamRequest), s.requests[i]? = some r →
      r.info.requestId ≠ info.requestId := by
    intro i r hi heq
    have hrec := (h.kept i r hi).record
    rw [heq, hc] at hrec
    cases hrec
  refine ⟨fun i r hi => ?_, fun i j r r' hi hj hid => ?_, fun m => ?_⟩
  · rcases getElem?_append_cases hi with hi' | hi'
    · have hk := h.kept i r hi'
      obtain ⟨record, hrec⟩ := Option.isSome_iff_exists.1 hk.record
      exact hk.congr ((hrecords _ record hrec).trans hrec.symm)
    · obtain rfl := List.mem_singleton.1 hi'
      exact hkept
  · simp only [List.getElem?_append, List.getElem?_singleton] at hi hj
    split_ifs at hi hj with hi' hi'' hj' hj'' hj''
    · exact h.ids i j r r' hi hj hid
    · cases hj
      exact absurd hid (hother i r hi)
    · cases hi
      exact absurd hid.symm (hother j r' hj)
    · omega
  · have hnew : TeamRequest.debited m ⟨info, session, false,
        db.spent session.funding.account - s.db.dueSpent env session.funding.account⟩ = 0 :=
      TeamRequest.debited_of_unfinished (by simp [TeamRequest.finished, hset, href]) m
    simp [debited, hmember, h.counted, hnew]

theorem inv_step (h : s.Inv before) {e : TeamUsageEvent} (hc : s.careful e = true) :
    (s.step cfg e).Inv before := by
  cases e with
  | request => exact inv_request h hc
  | act => exact inv_act h hc

/-- In every run of careful events a member's counter has grown by what their requests outside the
playground have taken in the end. -/
theorem used_eq_debited (cfg : BillingConfig) (db : Db) (es : List TeamUsageEvent)
    (hes : Along (step cfg) (fun s e => s.careful e = true) (init db) es) (member : ℕ × ℕ)
    (used : ℤ) (hmember : db.memberUsed member = some used) :
    (run (step cfg) (init db) es).db.memberUsed member =
      some (used + (run (step cfg) (init db) es).debited member) := by
  have h : (run (step cfg) (init db) es).Inv db :=
    hes.run_inv (I := Inv db) (fun _ _ hs he => inv_step hs he) (inv_init db)
  rw [h.counted, hmember, Option.map_some]

end TeamUsage

/-- A request of user 7 on the token of team 4, and its session of ten. -/
def teamRelay (requestId : String) : RelayInfo :=
  { sampleRelay with tokenTeamId := 4, requestId := requestId }

def teamRequest (requestId : String) : TeamUsageEvent :=
  .request noonEnv sampleReads ⟨noSessionFaults, noSessionFaults⟩ (teamRelay requestId) 10

/-- A `Settle` at thirty, with the error of the funding source. -/
def settledAt (i : ℕ) (err : Option String) : TeamUsageEvent :=
  .act i (.settle 30 ⟨none, err, none⟩)

def refundedJob : RefundJobFaults :=
  ⟨none, ⟨some "timeout", none, none⟩, ⟨none, none, none⟩, ⟨none, none, none⟩, none⟩

def teamRun (es : List TeamUsageEvent) : TeamUsage :=
  run (TeamUsage.step plainConfig) (TeamUsage.init sampleDb) es

def settledAndRefunded : List TeamUsageEvent :=
  [teamRequest "a", teamRequest "b", settledAt 0 none, .act 1 .refund,
    .act 1 (.refundJob refundedJob)]

theorem settled_and_refunded_counted : (teamRun settledAndRefunded).db.memberUsed (4, 7) =
      some (0 + (teamRun settledAndRefunded).debited (4, 7)) :=
  TeamUsage.used_eq_debited plainConfig sampleDb settledAndRefunded (by decide) (4, 7) 0 rfl

def settledTwice : List TeamUsageEvent :=
  [teamRequest "a", settledAt 0 (some "lock timeout"), settledAt 0 none]

def settledThenFailed : List TeamUsageEvent :=
  [teamRequest "a", settledAt 0 none,
    .act 0 (.refundTask TaskLife.submittedVideo 30 ⟨none, false, none⟩)]

theorem retried_settle_counted_twice : ((teamRun settledTwice).db.memberUsed (4, 7) = some 60 ∧
      (teamRun settledTwice).debited (4, 7) = 30) ∧
    (teamRun settledThenFailed).db.memberUsed (4, 7) = some 30 ∧
      (teamRun settledThenFailed).debited (4, 7) = 0 := by
  decide

end AggreApi
