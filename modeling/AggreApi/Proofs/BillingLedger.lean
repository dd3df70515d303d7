import AggreApi.BillingLedger
import AggreApi.Proofs.Billing

/-!
# A session's net debit

Over every run of a session its net debit is what the hold says: the amount it opened with until a
call commits, then the settled amount or nothing, for good.
-/

namespace AggreApi

open BillingSession Db Except Function Option

variable {db db' before after : Db} {delta amount : ℤ} {err : Option String} {funding : Funding}
  {env : SubscriptionEnv}

namespace Db

theorem spent_congr (hu : db'.userQuota = db.userQuota) (hs : db'.sub = db.sub)
    (a : Account) : db'.spent a = db.spent a := by
  cases a <;> simp [spent, hu, hs]

theorem covers_congr (hs : db'.sub = db.sub) (n : ℤ) (a : Account) :
    db'.covers n a = db.covers n a := by
  cases a <;> simp [covers, hs]

@[simp] theorem chargeToken_spent (db : Db) (id : ℕ) (delta : ℤ) (a : Account) :
    (db.chargeToken id delta).spent a = db.spent a := spent_congr (by rfl) (by rfl) a

@[simp] theorem chargeToken_covers (db : Db) (id : ℕ) (delta n : ℤ) (a : Account) :
    (db.chargeToken id delta).covers n a = db.covers n a := covers_congr (by rfl) n a

@[simp] theorem chargeToken_remain (db : Db) (id : ℕ) (delta : ℤ) :
    (db.chargeToken id delta).tokenRemain id = db.tokenRemain id - delta := by
  simp [chargeToken]

structure Moved (a : Account) (delta : ℤ) (db db' : Db) : Prop where
  spent : db'.spent a = db.spent a + delta
  covers : ∀ n, db.covers n a = true → db'.covers (n + delta) a = true
  tokenRemain : db'.tokenRemain = db.tokenRemain
  records : db'.sub.records = db.sub.records

theorem Moved.refl (a : Account) (db : Db) : Moved a 0 db db :=
  ⟨by simp, fun n h => by simpa using h, rfl, rfl⟩

variable {id : ℕ}

theorem adjustUserQuota_ok
    (h : db.adjustUserQuota id delta err = .ok db') : Moved (.wallet id) delta db db' := by
  have : db' = { db with
      userQuota := update db.userQuota id (db.userQuota id + -delta) } := by
    unfold adjustUserQuota at h
    split at h
    · exact updateUserQuota_ok h
    · exact updateUserQuota_ok h
  subst this
  refine ⟨?_, fun n _ => rfl, rfl, rfl⟩
  simp only [spent, update_self]
  omega

theorem adjustSub_ok (hd : delta ≠ 0) (hc : db.covers (-delta) (.subscription id) = true)
    (h : Funding.adjustSub db id delta err = .ok db') :
    Moved (.subscription id) delta db db' := by
  unfold Funding.adjustSub at h
  rcases hp : postConsumeUserSubscriptionDelta db.sub id delta err with e | sub <;> rw [hp] at h
  · exact absurd h (by simp [Except.map])
  obtain rfl := (ok.inj h).symm
  obtain ⟨row, hrow, hrow'⟩ := find_postConsume hd hp
  obtain ⟨_, _, rfl⟩ := postConsume_ok hd hp
  simp only [covers, hrow, any_some, decide_eq_true_eq] at hc
  have hmax : max 0 (row.amountUsed + delta) = row.amountUsed + delta := by omega
  refine ⟨?_, fun n hn => ?_, rfl, rfl⟩
  · simp [spent, hrow, hrow', shift_used, hmax]
  · simp only [covers, hrow, hrow', any_some, decide_eq_true_eq, shift_used, hmax] at hn ⊢
    omega

theorem adjustTokenQuota_ok
    (h : db.adjustTokenQuota id delta err = .ok db') : db' = db.chargeToken id delta := by
  unfold adjustTokenQuota at h
  split at h
  · exact updateTokenQuota_ok h
  · rw [← neg_neg delta]
    exact updateTokenQuota_ok h

theorem adjustTokenQuota_none (db : Db) (id : ℕ) (delta : ℤ) :
    db.adjustTokenQuota id delta none = .ok (db.chargeToken id delta) := by
  simp only [adjustTokenQuota, decreaseTokenQuota, increaseTokenQuota, updateTokenQuota]
  split_ifs
  all_goals first | omega | simp

end Db

namespace Funding

theorem settle_ok (hd : delta ≠ 0) (hc : db.covers (-delta) funding.account = true)
    (h : funding.settle db delta err = .ok db') : Db.Moved funding.account delta db db' := by
  cases funding <;> simp only [settle, if_neg hd] at h
  · exact adjustUserQuota_ok h
  · exact adjustSub_ok hd hc h
  · exact adjustSub_ok hd hc h

variable {attempts : List RefundFaults}

theorem refund_subscription_cases {requestId : String} {userId id : ℕ} (ha : attempts ≠ [])
    (hs : ∀ f ∈ attempts, f.save = none)
    (hr : db.sub.records.find requestId = some ⟨requestId, userId, id, amount, .consumed⟩)
    (hp : 0 < amount) (hc : db.covers amount (.subscription id) = true) :
    (∃ e, refundWithRetry db.sub requestId attempts = (db.sub, .error e)) ∨
      ∃ sub, refundWithRetry db.sub requestId attempts = (sub, .ok ()) ∧
        ({ db with sub := sub } : Db).spent (.subscription id) =
          db.spent (.subscription id) - amount ∧
        ({ db with sub := sub } : Db).covers 0 (.subscription id) = true := by
  rcases refundWithRetry_cases hr rfl hp ha hs with he | ⟨err, sub, hpost, he⟩
  · exact .inl he
  · refine .inr ⟨_, he, ?_⟩
    have hm : Db.Moved (.subscription id) (-amount) db { db with sub := sub } :=
      adjustSub_ok (by omega) (by rwa [neg_neg])
        (show adjustSub db id (-amount) err = _ by simp only [adjustSub, hpost, Except.map])
    refine ⟨hm.spent.trans (by omega), ?_⟩
    have := hm.covers amount hc
    rwa [add_neg_cancel] at this

theorem refund_cases (err : Option String) (ha : attempts ≠ []) (hs : ∀ f ∈ attempts, f.save = none)
    (hn : 0 ≤ amount) (hh : funding.Holds db amount)
    (hc : db.covers amount funding.account = true) :
    (funding.refund db err attempts).1.tokenRemain = db.tokenRemain ∧
      ((∃ e, funding.refund db err attempts = (db, .error e)) ∨
        (funding.refund db err attempts).2 = .ok () ∧
        (funding.refund db err attempts).1.spent funding.account =
          db.spent funding.account - amount ∧
        (funding.refund db err attempts).1.covers 0 funding.account = true) := by
  cases funding with
  | wallet userId consumed =>
    obtain rfl : consumed = amount := hh
    simp only [refund]
    split
    · obtain rfl : consumed = 0 := by omega
      exact ⟨rfl, .inr ⟨rfl, by simp, rfl⟩⟩
    · rcases hi : db.increaseUserQuota userId consumed err with e | db'
      · exact ⟨rfl, .inl ⟨e, rfl⟩⟩
      · obtain rfl := updateUserQuota_ok hi
        refine ⟨rfl, .inr ⟨rfl, ?_, rfl⟩⟩
        simp only [account, spent, update_self]
        omega
  | subscription requestId userId own id pre | team requestId teamId own id pre =>
    obtain ⟨rfl, hpos, _, hrec⟩ := hh
    simp only [refund, if_neg (not_le.2 hpos)]
    refine ⟨trivial, ?_⟩
    rcases refund_subscription_cases ha hs hrec hpos hc with ⟨e, he⟩ | ⟨sub, he, hsp, hcov⟩
    · exact .inl ⟨e, by rw [he]⟩
    · rw [he]
      exact .inr ⟨rfl, hsp, hcov⟩

theorem Holds.congr (h : funding.Holds db amount) (hr : funding.record db' = funding.record db) :
    funding.Holds db' amount := by
  cases funding with
  | wallet => exact h
  | subscription requestId userId own id pre | team requestId teamId own id pre =>
    obtain ⟨hp, hpos, u, hrec⟩ := h
    exact ⟨hp, hpos, u, hr.trans hrec⟩

theorem record_congr (h : db'.sub.records = db.sub.records) (funding : Funding) :
    funding.record db' = funding.record db := by
  cases funding <;> simp [record, h]

end Funding

namespace BillingSession

variable {info : RelayInfo} {f : SettleFaults} {a : ℤ} {db : Db} {s : BillingSession}

theorem countMember_sub : (s.countMember info f.member a db).sub = db.sub := by
  unfold countMember incrTeamMemberUsedQuota
  split
  · split_ifs
    · split <;> rfl
    · rfl
  · rfl

theorem countMember_moved (account : Account) :
    Db.Moved account 0 db (s.countMember info f.member a db) := by
  have h : ∀ {db' : Db}, db'.userQuota = db.userQuota → db'.sub = db.sub →
      db'.tokenRemain = db.tokenRemain → Db.Moved account 0 db db' := fun hu hs ht =>
    ⟨by rw [spent_congr hu hs, add_zero],
      fun n hn => by rw [covers_congr hs, add_zero]; exact hn, ht, by rw [hs]⟩
  unfold countMember incrTeamMemberUsedQuota
  split
  · split_ifs
    · split <;> exact h rfl rfl rfl
    · exact Db.Moved.refl _ _
  · exact Db.Moved.refl _ _

theorem settle_of_settled (h : s.settled = true) : s.settle info f a db = (db, s, .ok ()) := by
  simp [settle, h]

theorem settle_cases (h₁ : s.settled = false) (h₂ : s.fundingSettled = false) :
    let db₀ := s.countMember info f.member a db
    (a = s.preConsumedQuota ∧ (s.settle info f a db).1 = db₀ ∧
      (s.settle info f a db).2.1 = { s with settled := true }) ∨
    a ≠ s.preConsumedQuota ∧
      ((∃ e, s.funding.settle db₀ (a - s.preConsumedQuota) f.funding = .error e) ∧
        (s.settle info f a db).1 = db₀ ∧ (s.settle info f a db).2.1 = s ∨
      ∃ db₁ t, s.funding.settle db₀ (a - s.preConsumedQuota) f.funding = .ok db₁ ∧
        (s.settle info f a db).1 = db₁.chargeToken info.tokenId t ∧
        (f.token = none → t = tokenShare info (a - s.preConsumedQuota)) ∧
        (s.settle info f a db).2.1 = { s with fundingSettled := true, settled := true }) := by
  intro db₀
  simp only [settle, h₁, h₂, Bool.false_eq_true, if_false]
  split
  · exact .inl ⟨by omega, rfl, rfl⟩
  refine .inr ⟨by omega, ?_⟩
  rcases hf : s.funding.settle db₀ (a - s.preConsumedQuota) f.funding with e | db₁
  · exact .inl ⟨⟨e, rfl⟩, by simp [db₀]⟩
  · refine .inr ⟨db₁, ?_⟩
    simp only [true_and]
    split
    · refine ⟨0, by simp, fun _ => ?_, rfl⟩
      rw [tokenShare, if_pos ‹_›]
    · rcases ht : db₁.adjustTokenQuota info.tokenId (a - s.preConsumedQuota) f.token with e | db₂
      · refine ⟨0, by simp, fun hn => ?_, rfl⟩
        rw [hn, adjustTokenQuota_none] at ht
        cases ht
      · refine ⟨a - s.preConsumedQuota, adjustTokenQuota_ok ht, fun _ => ?_, rfl⟩
        rw [tokenShare, if_neg ‹_›]

theorem refundJob_eq (info : RelayInfo) (f : RefundJobFaults) (db : Db) {s : BillingSession}
    (hn : 0 ≤ s.tokenConsumed) :
    ∃ t, s.refundJob info f db =
        (s.funding.refund db f.wallet [f.first, f.second, f.third]).1.chargeToken info.tokenId t ∧
      (f.token = none → t = -tokenShare info s.tokenConsumed) := by
  unfold refundJob
  simp only
  generalize (s.funding.refund db f.wallet [f.first, f.second, f.third]).1 = db₁
  split_ifs with h
  · rcases ht : db₁.increaseTokenQuota info.tokenId s.tokenConsumed f.token with e | db₂
    · refine ⟨0, by simp, fun hf => ?_⟩
      rw [hf, increaseTokenQuota, updateTokenQuota.eq_def, if_neg (not_lt.2 hn)] at ht
      cases ht
    · refine ⟨-s.tokenConsumed, updateTokenQuota_ok ht, fun _ => ?_⟩
      rw [tokenShare, if_neg (by simp [h.2])]
  · refine ⟨0, by simp, fun _ => ?_⟩
    unfold tokenShare
    split_ifs with hp
    · rfl
    · have : ¬ 0 < s.tokenConsumed := fun h0 => h ⟨h0, by simpa using hp⟩
      omega

end BillingSession

namespace SessionRun

variable {info : RelayInfo} {funding : Funding} {p : ℤ}

/-- The flags of a session and its goroutine, as the hold says. -/
def Flags (session : BillingSession) (job : Bool) : Hold ℤ → Prop
  | .held => session.settled = false ∧ session.fundingSettled = false ∧
      session.refunded = false ∧ job = false
  | .captured _ => session.settled = true ∧ session.refunded = false ∧ job = false
  | .releasing => session.settled = false ∧ session.refunded = true
  | .released => session.settled = false ∧ session.refunded = true ∧ job = false

structure Inv (funding : Funding) (p : ℤ) (s : SessionRun) : Prop where
  source : s.session.funding = funding
  amount : s.session.preConsumedQuota = p
  consumed : s.session.tokenConsumed = p
  nonneg : 0 ≤ p
  net : s.fundingNet = s.hold.net p
  covers : s.db.covers s.fundingNet funding.account = true
  flags : Flags s.session s.job s.hold
  holds : s.hold = .held ∨ s.job = true → funding.Holds s.db p

/-- The token has been charged its share of what the funding source has. -/
def TokenInv (info : RelayInfo) (s : SessionRun) : Prop :=
  s.tokenNet = tokenShare info s.fundingNet

variable {s : SessionRun}

theorem Inv.charge (h : s.Inv funding p) (info : RelayInfo)
    (session : BillingSession) (job : Bool) (hold : Hold ℤ) (delta t : ℤ)
    (hsession : session.funding = funding ∧ session.preConsumedQuota = p ∧
      session.tokenConsumed = p)
    (hspent : db.spent funding.account = s.db.spent funding.account + delta)
    (hcovers : db.covers (s.fundingNet + delta) funding.account = true)
    (hremain : db.tokenRemain info.tokenId = s.db.tokenRemain info.tokenId - t)
    (hnet : s.fundingNet + delta = hold.net p) (hflags : Flags session job hold)
    (hholds : hold = .held ∨ job = true → funding.Holds db p) :
    Inv funding p { s.charge info db with session := session, job := job, hold := hold } ∧
      (t = tokenShare info delta → s.TokenInv info →
        TokenInv info { s.charge info db with session := session, job := job, hold := hold }) := by
  have hf : s.fundingNet + (db.spent s.account - s.db.spent s.account) = s.fundingNet + delta := by
    rw [account, h.source, hspent]
    omega
  refine ⟨⟨hsession.1, hsession.2.1, hsession.2.2, h.nonneg, hf.trans hnet, ?_, hflags,
    hholds⟩, fun ht hs => ?_⟩
  · simp only [SessionRun.charge, hf]
    exact hcovers
  · unfold TokenInv at hs ⊢
    simp only [SessionRun.charge, hf, hremain, ht, hs, tokenShare]
    split_ifs <;> omega

theorem covers_mono {account : Account} {m n : ℤ} (h : db.covers n account = true)
    (hmn : m ≤ n) : db.covers m account = true := by
  cases account with
  | wallet => rfl
  | subscription =>
    simp only [covers, any_eq_true, decide_eq_true_eq] at h ⊢
    obtain ⟨row, hrow, hle⟩ := h
    exact ⟨row, hrow, hmn.trans hle⟩

variable {a : ℤ} {f : SettleFaults}

theorem inv_settle_held (h : s.Inv funding p) (hhold : s.hold = .held)
    (ha : 0 ≤ a ∨ s.db.covers (s.session.preConsumedQuota - a) s.account = true) :
    (s.step info (.settle a f)).Inv funding p ∧
      (f.token = none → s.TokenInv info → (s.step info (.settle a f)).TokenInv info) := by
  have hstep : s.step info (.settle a f) =
      { s.charge info (s.session.settle info f a s.db).1 with
        session := (s.session.settle info f a s.db).2.1
        hold := s.hold.step (.capture a (s.commits info a f)) } := rfl
  have hflags := h.flags
  have hnet := h.net
  rw [hhold] at hflags hnet
  obtain ⟨h₁, h₂, h₃, h₄⟩ := hflags
  have hm : Db.Moved funding.account 0 s.db (s.session.countMember info f.member a s.db) :=
    countMember_moved funding.account
  have hkeep := hm.covers _ h.covers
  rw [hstep, hhold]
  rcases settle_cases h₁ h₂ with
    ⟨he, hdb, hs⟩ | ⟨hne, ⟨⟨e, he⟩, hdb, hs⟩ | ⟨db₁, t, hok, hdb, htoken, hs⟩⟩
  · rw [hdb, hs, show s.commits info a f = true by simp [commits, he]]
    refine (h.charge info { s.session with settled := true } s.job (.captured a) 0 0
      ⟨h.source, h.amount, h.consumed⟩ hm.spent hkeep (by rw [hm.tokenRemain, sub_zero]) ?_
      ⟨rfl, h₃, h₄⟩ (by simp [h₄])).imp_right fun hk _ => hk (by simp [tokenShare])
    rw [hnet, add_zero, he, h.amount]
    rfl
  · have hc : s.commits info a f = false := by
      simp [commits, hne, he, Except.isOk, Except.toBool]
    rw [hdb, hs, hc, Hold.step_capture_false]
    refine (h.charge info s.session s.job .held 0 0 ⟨h.source, h.amount, h.consumed⟩ hm.spent hkeep
      (by rw [hm.tokenRemain, sub_zero]) (by rw [hnet, add_zero]) ⟨h₁, h₂, h₃, h₄⟩
      fun _ => ?_).imp_right fun hk _ => hk (by simp [tokenShare])
    exact (h.holds (.inl hhold)).congr (Funding.record_congr hm.records funding)
  · rw [hdb, hs, show s.commits info a f = true by simp [commits, hok, Except.isOk, Except.toBool]]
    have hd : a - s.session.preConsumedQuota ≠ 0 := by omega
    have hroom : (s.session.countMember info f.member a s.db).covers
        (-(a - s.session.preConsumedQuota)) s.session.funding.account = true := by
      rcases ha with ha | ha
      · rw [h.source, h.amount]
        refine covers_mono hkeep ?_
        rw [hnet, Hold.net]
        omega
      · rw [account, h.source] at ha
        rw [h.source]
        exact covers_mono (hm.covers _ ha) (by omega)
    have hmv := Funding.settle_ok hd hroom hok
    rw [h.source, h.amount] at hmv
    refine (h.charge info { s.session with fundingSettled := true, settled := true } s.job
      (.captured a) (a - p) t ⟨h.source, h.amount, h.consumed⟩ ?_ ?_ ?_ ?_ ⟨rfl, h₃, h₄⟩
      (by simp [h₄])).imp_right fun hk ht => hk (by rw [htoken ht, h.amount])
    · rw [chargeToken_spent, hmv.spent, hm.spent]
      omega
    · rw [chargeToken_covers]
      have := hmv.covers _ hkeep
      rwa [add_zero] at this
    · rw [chargeToken_remain, hmv.tokenRemain, hm.tokenRemain]
    · rw [hnet]
      simp only [Hold.net]
      omega

theorem charge_self (info : RelayInfo) (s : SessionRun) : s.charge info s.db = s := by
  simp [charge]

section
variable (h : s.Inv funding p)
include h

theorem inv_settle (ha : s.allowed (.settle a f)) : (s.step info (.settle a f)).Inv funding p ∧
      (f.token = none → s.TokenInv info → (s.step info (.settle a f)).TokenInv info) := by
  have hflags := h.flags
  rcases hhold : s.hold with _ | b | _ | _ <;> rw [hhold] at hflags
  · exact inv_settle_held h hhold ha.2
  · have hstep : s.step info (.settle a f) = s := by
      simp only [step, call, settle_of_settled hflags.1, charge_self,
        Hold.step_of_isFinal (show s.hold.isFinal = true by rw [hhold]; rfl)]
    rw [hstep]
    exact ⟨h, fun _ ht => ht⟩
  · exact absurd (hflags.2.symm.trans ha.1) (by simp)
  · exact absurd (hflags.2.1.symm.trans ha.1) (by simp)

theorem Inv.held_of_due (hdue : s.session.needsRefundLocked = true) : s.hold = .held := by
  have hflags := h.flags
  unfold needsRefundLocked at hdue
  split at hdue
  · exact absurd hdue Bool.false_ne_true
  rename_i hopen
  simp only [Bool.or_eq_true, not_or, Bool.not_eq_true] at hopen
  rcases hhold : s.hold with _ | b | _ | _
  · rfl
  · rw [hhold] at hflags
    exact absurd (hflags.1.symm.trans hopen.1.1) (by simp)
  · rw [hhold] at hflags
    exact absurd (hflags.2.symm.trans hopen.1.2) (by simp)
  · rw [hhold] at hflags
    exact absurd (hflags.2.1.symm.trans hopen.1.2) (by simp)

theorem inv_refund : (s.step info .refund).Inv funding p ∧
      (s.TokenInv info → (s.step info .refund).TokenInv info) := by
  refine ⟨?_, id⟩
  rcases hdue : s.session.needsRefundLocked with _ | _
  · have hstep : s.step info .refund = s := by
      simp [step, call, observe, refund, hdue]
    rw [hstep]
    exact h
  · have hhold := h.held_of_due hdue
    have hflags := h.flags
    rw [hhold] at hflags
    obtain ⟨h₁, h₂, h₃, h₄⟩ := hflags
    have hstep : s.step info .refund =
        { s with session := { s.session with refunded := true }, job := true,
                 hold := .releasing } := by
      simp [step, call, observe, refund, hdue, hhold, h₁, h₃, Hold.step]
    rw [hstep]
    have hnet := h.net
    rw [hhold] at hnet
    exact ⟨h.source, h.amount, h.consumed, h.nonneg, hnet, h.covers, ⟨h₁, rfl⟩,
      fun _ => h.holds (.inl hhold)⟩

theorem inv_refundJob {f : RefundJobFaults} (ha : s.allowed (.refundJob f)) :
    (s.step info (.refundJob f)).Inv funding p ∧
      (s.tokenUpdated (.refundJob f) → s.TokenInv info →
        (s.step info (.refundJob f)).TokenInv info) := by
  rcases hjob : s.job with _ | _
  · have hret : s.returns f = false := by simp [returns, hjob]
    have hstep : s.step info (.refundJob f) = s := by
      simp only [step, call, observe, hret, Hold.step_returned_false,
        if_neg (show ¬ s.job = true by simp [hjob])]
    rw [hstep]
    exact ⟨h, fun _ ht => ht⟩
  have hflags := h.flags
  rcases hhold : s.hold with _ | b | _ | _ <;> rw [hhold] at hflags
  · exact absurd (hflags.2.2.2.symm.trans hjob) (by simp)
  · exact absurd (hflags.2.2.symm.trans hjob) (by simp)
  · have hnet : s.fundingNet = p := by rw [h.net, hhold]; rfl
    obtain ⟨t, hdb, htoken⟩ := refundJob_eq info f s.db
      (h.consumed.symm ▸ h.nonneg)
    have hstep : s.step info (.refundJob f) =
        { s.charge info (s.session.refundJob info f s.db) with
          session := s.session
          job := false
          hold := Hold.releasing.step (.returned (s.returns f)) } := by
      simp [step, call, observe, hjob, hhold, SessionRun.charge]
    have hsave : ∀ g ∈ [f.first, f.second, f.third], g.save = none := by
      simpa using (show _ ∧ _ ∧ _ from ha)
    obtain ⟨hremain, hc⟩ := Funding.refund_cases f.wallet (by simp) hsave h.nonneg
      (h.holds (.inr hjob)) (hnet ▸ h.covers)
    rw [hstep, hdb, h.source]
    rw [h.consumed] at htoken
    rcases hc with ⟨e, he⟩ | ⟨hok, hspent, hcovers⟩
    · have hret : s.returns f = false := by
        simp [returns, h.source, he, Except.isOk, Except.toBool]
      rw [he, hret, Hold.step_returned_false]
      refine (h.charge info s.session false .releasing 0 t ⟨h.source, h.amount, h.consumed⟩
        (by simp) (by simpa using h.covers) (by simp) (by rw [hnet, add_zero]; rfl) hflags
        (by simp)).imp_right fun _ ht => absurd (hret.symm.trans (ht.2 hjob)) (by simp)
    · have hret : s.returns f = true := by
        simp [returns, hjob, h.source, hok, Except.isOk, Except.toBool]
      rw [hret]
      refine (h.charge info s.session false .released (-p) t ⟨h.source, h.amount, h.consumed⟩
        ?_ ?_ ?_ ?_ ⟨hflags.1, hflags.2, rfl⟩ (by simp)).imp_right fun hk ht => hk ?_
      · rw [chargeToken_spent, hspent]
        omega
      · rw [chargeToken_covers, hnet, add_neg_cancel]
        exact hcovers
      · rw [chargeToken_remain, hremain]
      · rw [hnet, add_neg_cancel]
        rfl
      · rw [htoken ht.1]
        unfold tokenShare
        split_ifs <;> simp
  · exact absurd (hflags.2.2.symm.trans hjob) (by simp)

theorem inv_others (ha : s.allowed (.others db)) : (s.step info (.others db)).Inv funding p := by
  have hstep : s.step info (.others db) = { s with db := db } := by
    simp [step, call, observe, Hold.step_other]
  obtain ⟨hcovers, hrecord⟩ := ha
  rw [account, h.source] at hcovers
  rw [h.source] at hrecord
  rw [hstep]
  exact ⟨h.source, h.amount, h.consumed, h.nonneg, h.net, hcovers, h.flags,
    fun hh => (h.holds hh).congr hrecord⟩

theorem inv_step {e : SessionEvent} (ha : s.allowed e) :
    (s.step info e).Inv funding p ∧
      (s.tokenUpdated e → s.TokenInv info → (s.step info e).TokenInv info) := by
  cases e with
  | settle => exact inv_settle h ha
  | refund => exact (inv_refund h).imp_right fun hk _ => hk
  | refundJob => exact inv_refundJob h ha
  | others => exact ⟨inv_others h ha, fun _ ht => ht⟩

end

theorem charged_net (h : funding.Charged env before after amount) :
    after.spent funding.account - before.dueSpent env funding.account = amount := by
  have hsub : ∀ id, Debited env amount id before.sub.subs after.sub.subs →
      after.spent (.subscription id) - before.dueSpent env (.subscription id) = amount := by
    rintro id ⟨⟨row, row', hrow, hdue, hrow'⟩, -⟩
    simp only [spent, dueSpent, hrow, hrow', hdue, map_some, getD_some,
      bind_some, debit_used]
    omega
  cases funding with
  | wallet =>
    simp only [Funding.account, spent, dueSpent, h.1, update_self]
    omega
  | subscription requestId userId own id pre | team requestId teamId own id pre => exact hsub id h.2

theorem charged_covers (hused : ∀ row ∈ before.sub.subs.rows, 0 ≤ row.amountUsed)
    (h : funding.Charged env before after amount) :
    after.covers amount funding.account = true := by
  have hsub : ∀ id, Debited env amount id before.sub.subs after.sub.subs →
      after.covers amount (.subscription id) = true := by
    rintro id ⟨⟨row, row', hrow, hdue, hrow'⟩, -⟩
    have hnn : 0 ≤ row'.amountUsed := by
      rcases afterDueReset_used hdue with h | h
      · rw [h]
        exact hused row (Table.mem_of_find hrow)
      · rw [h]
    simp [covers, hrow', hnn]
  cases funding with
  | wallet => rfl
  | subscription requestId userId own id pre | team requestId teamId own id pre => exact hsub id h.2

theorem dueSpent_congr (hu : db'.userQuota = db.userQuota) (hs : db'.sub = db.sub) (a : Account) :
    db'.dueSpent env a = db.dueSpent env a := by
  cases a <;> simp [dueSpent, hu, hs]

theorem inv_start {db₁ : Db} {session : BillingSession}
    {c : Prop} (hu : Undone c before db₁) (ho : Opened env info db₁ after session)
    (hused : ∀ row ∈ before.sub.subs.rows, 0 ≤ row.amountUsed) :
    (start env info before after session).Inv session.funding session.preConsumedQuota ∧
      (c → (start env info before after session).TokenInv info) := by
  have hspent := charged_net ho.funding
  have hcovers := charged_covers (hu.sub ▸ hused) ho.funding
  rw [dueSpent_congr hu.userQuota hu.sub] at hspent
  have hnet : (start env info before after session).fundingNet = session.preConsumedQuota := hspent
  refine ⟨⟨rfl, rfl, ho.tokenConsumed, ho.nonneg, hnet, hnet ▸ hcovers,
    ⟨ho.unsettled, ho.unfunded, ho.unrefunded, rfl⟩, fun _ => ho.holds⟩, fun hc => ?_⟩
  rw [TokenInv, hnet]
  obtain rfl := hu.all hc
  simp only [start, ho.token.1, chargeToken_remain]
  omega

/-- The net debit is what the hold says, the flags say which call took effect, and once one has,
the net debit stays. -/
structure Ledgered (info : RelayInfo) (p : ℤ) (s : SessionRun) : Prop where
  net : s.fundingNet = s.hold.net p
  settled : s.session.settled = true ↔ ∃ a, s.hold = .captured a
  refunded : s.session.refunded = true ↔ s.hold = .releasing ∨ s.hold = .released
  final : s.hold.isFinal = true → ∀ es, Along (step info) allowed s es →
    (run (step info) s es).fundingNet = s.fundingNet

theorem inv_run (h : s.Inv funding p) {es : List SessionEvent}
    (ha : Along (step info) allowed s es) : (run (step info) s es).Inv funding p :=
  ha.run_inv (I := Inv funding p) (fun _ _ hs he => (inv_step hs he).1) h

theorem hold_run_of_isFinal (h : s.hold.isFinal = true)
    (es : List SessionEvent) : (run (step info) s es).hold = s.hold := by
  refine run_inv (I := fun s' : SessionRun => s'.hold = s.hold) (fun s' e hs => ?_) rfl es
  show s'.hold.step _ = s.hold
  rw [hs, Hold.step_of_isFinal h]

theorem Inv.ledgered (h : s.Inv funding p) : s.Ledgered info p := by
  have hflags := h.flags
  refine ⟨h.net, ?_, ?_, fun hf es ha => ?_⟩
  · rcases hhold : s.hold with _ | b | _ | _ <;> rw [hhold] at hflags <;> simp [hflags.1]
  · rcases hhold : s.hold with _ | b | _ | _ <;> rw [hhold] at hflags
    · simp [hflags.2.2.1]
    · simp [hflags.2.1]
    · simp [hflags.2]
    · simp [hflags.2.1]
  · rw [(inv_run h ha).net, h.net, hold_run_of_isFinal hf]

def walletRelay : RelayInfo := { sampleRelay with billingPreference := .walletOnly }

def walletSession : BillingSession := ⟨.wallet 7 3, 3, 3, false, false, false⟩

def chargedDb : Db :=
  { sampleDb.chargeToken 3 3 with
    userQuota := update sampleDb.userQuota 7 (sampleDb.userQuota 7 + -3) }

def settleTwice : List SessionEvent :=
  [.settle 4 ⟨none, some "lock timeout", none⟩, .settle 2 ⟨none, none, none⟩, .refund]

/-- The books of a session are right over every run exactly when its wallet was not asked for less
than nothing. -/
theorem ledgered_iff (cfg : BillingConfig) (env : SubscriptionEnv) (r : BillingReads)
    (f : OpenFaults) (info : RelayInfo) (preConsumedQuota : ℤ) (before after : Db)
    (session : BillingSession)
    (hopen : newBillingSession cfg env r f info preConsumedQuota before =
      some (after, .ok session))
    (hfresh : before.sub.records.find info.requestId = none)
    (hused : ∀ row ∈ before.sub.subs.rows, 0 ≤ row.amountUsed) :
    (∀ es, Along (step info) allowed (start env info before after session) es →
      Ledgered info session.preConsumedQuota
        (run (step info) (start env info before after session) es) ∧
      (f.compensated → Along (step info) tokenUpdated (start env info before after session) es →
        TokenInv info (run (step info) (start env info before after session) es))) ↔
    (session.funding.blank = walletOf info → 0 ≤ preConsumedQuota ∨ Trusted cfg r info) := by
  obtain ⟨db₁, funding, hu, -, ho⟩ := newBillingSession_ok hopen
  constructor
  · intro h hwallet
    by_contra hneg
    rw [not_or, not_le] at hneg
    have hamount := ho.amount
    rw [RightAmount, if_pos hwallet] at hamount
    have hp : session.preConsumedQuota = preConsumedQuota :=
      hamount.resolve_right fun ht => hneg.2 ht.2
    have hnet := (h [] trivial).1.net
    obtain ⟨userId, hacc⟩ : ∃ userId, session.funding.account = .wallet userId := by
      cases hf : session.funding <;> rw [hf] at hwallet
      · exact ⟨_, rfl⟩
      · exact absurd hwallet (by simp [Funding.blank, walletOf])
      · exact absurd hwallet (by simp [Funding.blank, walletOf])
    simp only [run_nil, start, hacc, Db.spent, Db.dueSpent, Hold.net,
      ho.unpaid (by omega), hu.userQuota] at hnet
    omega
  · intro hp es ha
    obtain ⟨hinv, htoken⟩ := inv_start hu
      (ho.opened (hu.sub ▸ hfresh) (ho.blank ▸ hp)) hused
    refine ⟨(inv_run hinv ha).ledgered, fun hc hup => ?_⟩
    exact ((ha.and hup).run_inv
      (I := fun s => s.Inv session.funding session.preConsumedQuota ∧ s.TokenInv info)
      (fun s e hs he => ⟨(inv_step hs.1 he.1).1, (inv_step hs.1 he.1).2 he.2 hs.2⟩)
      ⟨hinv, htoken hc⟩).2

theorem settle_retried_ledgered :
    ((run (step walletRelay) (start noonEnv walletRelay sampleDb chargedDb walletSession)
        settleTwice).hold = .captured 2 ∧
      (run (step walletRelay) (start noonEnv walletRelay sampleDb chargedDb walletSession)
        settleTwice).fundingNet = 2) ∧
    Ledgered walletRelay walletSession.preConsumedQuota (run (step walletRelay)
      (start noonEnv walletRelay sampleDb chargedDb walletSession) settleTwice) ∧
    TokenInv walletRelay (run (step walletRelay)
      (start noonEnv walletRelay sampleDb chargedDb walletSession) settleTwice) := by
  have h := (ledgered_iff plainConfig noonEnv sampleReads ⟨noSessionFaults, noSessionFaults⟩
    walletRelay 3 sampleDb chargedDb walletSession rfl rfl (by decide)).2
    (fun _ => .inl (by decide)) settleTwice
    ⟨⟨rfl, .inl (by decide)⟩, ⟨rfl, .inl (by decide)⟩, trivial, trivial⟩
  exact ⟨by decide, h.1, h.2 ⟨rfl, rfl⟩ ⟨rfl, rfl, trivial, trivial⟩⟩

/-- A wallet that is asked for less than nothing is charged nothing, and a `Settle` then takes the
difference to the negative amount. -/
theorem negative_request_overcharged :
    (newBillingSession plainConfig noonEnv sampleReads ⟨noSessionFaults, noSessionFaults⟩
        walletRelay (-100) sampleDb).map (fun x => x.2.toOption.map fun session =>
      let s := start noonEnv walletRelay sampleDb x.1 session
      let s' := run (step walletRelay) s [.settle 50 ⟨none, none, none⟩]
      (session.preConsumedQuota, s.fundingNet, s'.hold, s'.fundingNet)) =
    some (some (-100, 0, .captured 50, 150)) := by
  decide

end SessionRun

end AggreApi
