import AggreApi.Billing
import AggreApi.Lib.Hold

/-!
# The runs of a session

A session from its opening on: calls of `Settle` and `Refund`, the goroutine a `Refund` starts, and
what other requests do to the tables. What the session takes is summed up call by call beside the
hold its calls amount to.
-/

namespace AggreApi

/-- Where a session's charge is kept. -/
inductive Account
  | wallet (userId : ℕ)
  | subscription (id : ℕ)
  deriving DecidableEq, Repr

def Funding.account : Funding → Account
  | .wallet userId _ => .wallet userId
  | .subscription _ _ _ id _ => .subscription id
  | .team _ _ _ id _ => .subscription id

variable (info : RelayInfo) (s : SessionRun) (db : Db)

namespace Db

/-- What has been spent from an account; a wallet counts down, a subscription up. -/
def spent : Account → ℤ
  | .wallet userId => -db.userQuota userId
  | .subscription id => ((db.sub.subs.find id).map UserSubscription.amountUsed).getD 0

def dueSpent (env : SubscriptionEnv) (db : Db) : Account → ℤ
  | .wallet userId => -db.userQuota userId
  | .subscription id =>
    (((db.sub.subs.find id).bind (afterDueReset env)).map UserSubscription.amountUsed).getD 0

/-- The amount is still part of what a subscription has recorded as used. -/
def covers (amount : ℤ) : Account → Bool
  | .wallet _ => true
  | .subscription id => (db.sub.subs.find id).any (amount ≤ ·.amountUsed)

end Db

def Funding.record : Funding → Option SubscriptionPreConsumeRecord
  | .wallet _ _ => none
  | .subscription requestId _ _ _ _ => db.sub.records.find requestId
  | .team requestId _ _ _ _ => db.sub.records.find requestId

/-- A session under way: `job` is a refund's goroutine still to run, the nets what it has taken. -/
structure SessionRun where
  db : Db
  session : BillingSession
  job : Bool
  hold : Hold ℤ
  fundingNet : ℤ
  tokenNet : ℤ

inductive SessionEvent
  | settle (actualQuota : ℤ) (f : SettleFaults)
  | refund
  | refundJob (f : RefundJobFaults)
  | others (db : Db)

namespace SessionRun

def account (s : SessionRun) : Account := s.session.funding.account

def start (env : SubscriptionEnv) (info : RelayInfo) (before after : Db)
    (session : BillingSession) : SessionRun where
  db := after
  session := session
  job := false
  hold := .held
  fundingNet := after.spent session.funding.account - before.dueSpent env session.funding.account
  tokenNet := before.tokenRemain info.tokenId - after.tokenRemain info.tokenId

def charge : SessionRun :=
  { s with
    db := db
    fundingNet := s.fundingNet + (db.spent s.account - s.db.spent s.account)
    tokenNet := s.tokenNet + (s.db.tokenRemain info.tokenId - db.tokenRemain info.tokenId) }

/-- Whether a `Settle` commits: there is nothing to adjust, or the funding source takes it. -/
def commits (actualQuota : ℤ) (f : SettleFaults) : Bool :=
  actualQuota = s.session.preConsumedQuota ||
    (s.session.funding.settle (s.session.countMember info f.member actualQuota s.db)
      (actualQuota - s.session.preConsumedQuota) f.funding).isOk

def returns (f : RefundJobFaults) : Bool :=
  s.job && (s.session.funding.refund s.db f.wallet [f.first, f.second, f.third]).2.isOk

def observe : SessionEvent → Hold.Event ℤ
  | .settle actualQuota f => .capture actualQuota (s.commits info actualQuota f)
  | .refund => .release s.session.needsRefundLocked
  | .refundJob f => .returned (s.returns f)
  | .others _ => .other

def call : SessionEvent → SessionRun
  | .settle actualQuota f =>
    let r := s.session.settle info f actualQuota s.db
    { s.charge info r.1 with session := r.2.1 }
  | .refund =>
    let r := s.session.refund
    { s with session := r.1, job := s.job || r.2 }
  | .refundJob f =>
    if s.job then { s.charge info (s.session.refundJob info f s.db) with job := false } else s
  | .others db => { s with db := db }

def step (info : RelayInfo) (s : SessionRun) (e : SessionEvent) : SessionRun :=
  { s.call info e with hold := s.hold.step (s.observe info e) }

/-- No `Settle` after a `Refund`, nor one that would take a usage below zero; a refund's record
can be saved; the others leave the session's record and charge in place. -/
def allowed : SessionEvent → Prop
  | .settle actualQuota _ => s.session.refunded = false ∧
      (0 ≤ actualQuota ∨ s.db.covers (s.session.preConsumedQuota - actualQuota) s.account = true)
  | .refund => True
  | .refundJob f => f.first.save = none ∧ f.second.save = none ∧ f.third.save = none
  | .others db => db.covers s.fundingNet s.account = true ∧
      s.session.funding.record db = s.session.funding.record s.db

def tokenUpdated : SessionEvent → Prop
  | .settle _ f => f.token = none
  | .refundJob f => f.token = none ∧ (s.job = true → s.returns f = true)
  | _ => True

end SessionRun

end AggreApi
