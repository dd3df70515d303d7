import AggreApi.Subscription
import AggreApi.Lib.Run

/-!
# Usage over periods

The four transactions one after the other, with the books that say whose usage it is. A request's
debit belongs to the period its pre-consume fell in; what it settles or gives back after a reset is
late. The rows carry no such mark.
-/

namespace AggreApi

def SubscriptionPlan.resets (plan : SubscriptionPlan) (env : SubscriptionEnv)
    (sub : UserSubscription) : Bool :=
  let base := if sub.lastResetTime ≤ 0 then sub.startTime else sub.lastResetTime
  let next := calcNextResetTime env.cal plan base sub.endTime
  ¬(0 < sub.nextResetTime ∧ env.now < sub.nextResetTime) ∧ plan.quotaResetPeriod ≠ .never ∧
    0 < next ∧ next ≤ env.now

def resetDue (env : SubscriptionEnv) (sub : UserSubscription) : Bool :=
  match env.plan sub.planId with
  | .ok plan => plan.resets env sub
  | .error _ => false

def resetRows (env : SubscriptionEnv) (amount : ℤ) : List UserSubscription → List ℕ
  | [] => []
  | candidate :: rest =>
    (if resetDue env candidate then [candidate.id] else []) ++
      if (afterDueReset env candidate).any (·.hasRoom amount) then []
      else resetRows env amount rest

/-- The row `ResetDueSubscriptions` empties, if it does. -/
def resetDueRows (env : SubscriptionEnv) (db : Subscriptions) (id : ℕ) : List ℕ :=
  match db.subs.find id with
  | some sub =>
    if 0 < sub.nextResetTime ∧ sub.nextResetTime ≤ env.now ∧ sub.status = .active ∧
      resetDue env sub then [id] else []
  | none => []

variable (db : Subscriptions) (requestId : String)

def refundedAmount (f : RefundFaults) : ℤ :=
  match f.find, db.records.find requestId with
  | none, some record =>
    if isBlank requestId ∨ record.status = .refunded ∨ record.preConsumed ≤ 0 then 0
    else match postConsumeUserSubscriptionDelta db record.userSubscriptionId
      (-record.preConsumed) f.adjust with
      | .ok _ => record.preConsumed
      | .error _ => 0
  | _, _ => 0

/-- A request's net debit, whether it is of this period, and else what it has moved since. -/
structure Debit where
  requestId : String
  subscription : ℕ
  net : ℤ
  late : ℤ
  current : Bool
  deriving DecidableEq, Repr

namespace Debit

def move (delta : ℤ) (d : Debit) : Debit :=
  { d with net := d.net + delta, late := if d.current then d.late else d.late + delta }

def expire (ids : List ℕ) (d : Debit) : Debit :=
  if d.subscription ∈ ids then { d with current := false, late := 0 } else d

theorem expire_requestId (ids : List ℕ) (d : Debit) :
    (d.expire ids).requestId = d.requestId := by
  unfold expire
  split_ifs <;> rfl

end Debit

structure SubUsage where
  db : Subscriptions
  debits : Table Debit.requestId

/-- `settle` is an adjustment by a request's delta, of the subscription it has pre-consumed. -/
inductive UsageEvent
  | preConsumeUser (requestId : String) (userId : ℕ) (amount : ℤ) (env : SubscriptionEnv)
      (f : PreConsumeFaults)
  | preConsumeTeam (requestId : String) (teamId : ℕ) (amount : ℤ) (env : SubscriptionEnv)
      (f : PreConsumeFaults)
  | settle (requestId : String) (delta : ℤ) (err : Option String)
  | refund (requestId : String) (f : RefundFaults)
  | reset (id : ℕ) (env : SubscriptionEnv)

namespace SubUsage

def init : SubUsage := ⟨db, ⟨[], List.nodup_nil⟩⟩

variable (s : SubUsage)

def used (id : ℕ) : ℤ := s.db.subs.col UserSubscription.amountUsed id

def expire (s : SubUsage) (ids : List ℕ) : Table Debit.requestId :=
  s.debits.map (Debit.expire ids) (Debit.expire_requestId ids)

def preConsumed (env : SubscriptionEnv) (owner : PreConsumeOwner) (requestId : String) (amount : ℤ)
    :
    Option (Except String (Subscriptions × SubscriptionPreConsumeResult)) → SubUsage
  | some (.ok (db, r)) =>
    if (s.db.records.find requestId).isSome then { s with db := db }
    else
      ⟨db, (s.expire (resetRows env amount (activeSubscriptions env owner s.db))).insert
        ⟨requestId, r.userSubscriptionId, amount, 0, true⟩⟩
  | _ => s

def step : UsageEvent → SubUsage
  | .preConsumeUser requestId userId amount env f =>
    s.preConsumed env (userOwner userId) requestId amount
      (preConsumeUserSubscription env f requestId userId amount s.db)
  | .preConsumeTeam requestId teamId amount env f =>
    s.preConsumed env (teamOwner teamId) requestId amount
      (preConsumeTeamSubscription env f requestId teamId amount s.db)
  | .settle requestId delta err =>
    match s.debits.find requestId with
    | none => s
    | some d =>
      match postConsumeUserSubscriptionDelta s.db d.subscription delta err with
      | .ok db => ⟨db, s.debits.put (d.move delta)⟩
      | .error _ => s
  | .refund requestId f =>
    ⟨(refundSubscriptionPreConsume s.db requestId f).1,
      match s.debits.find requestId with
      | none => s.debits
      | some d => s.debits.put (d.move (-refundedAmount s.db requestId f))⟩
  | .reset id env =>
    match resetSubscription env s.db id with
    | some db => ⟨db, s.expire (resetDueRows env s.db id)⟩
    | none => s

def currentNet (id : ℕ) : ℤ :=
  s.debits.total fun d => if d.subscription = id ∧ d.current then d.net else 0

def late (s : SubUsage) (id : ℕ) : ℤ :=
  s.debits.total fun d => if d.subscription = id ∧ ¬d.current then d.late else 0

def uncut : UsageEvent → Bool
  | .settle requestId delta _ =>
    (s.debits.find requestId).all fun d => 0 ≤ s.used d.subscription + delta
  | .refund requestId _ =>
    (s.db.records.find requestId).all fun record =>
      record.status = .refunded || record.preConsumed ≤ s.used record.userSubscriptionId
  | _ => true

/-- Only requests of this period settle or are refunded, none more than it was debited. -/
def inPeriod : UsageEvent → Bool
  | .settle requestId delta _ =>
    (s.debits.find requestId).all fun d => d.current && 0 ≤ d.net + delta
  | .refund requestId _ =>
    (s.db.records.find requestId).all fun record => record.status = .refunded ||
      (s.debits.find requestId).all fun d => d.current && record.preConsumed ≤ d.net
  | _ => true

end SubUsage

def Subscriptions.unused : Bool :=
  (db.subs.rows.all fun sub => sub.amountUsed = 0) && db.records.rows.isEmpty

/-- A run, with what the refunds of one request have taken and whether one has returned. -/
structure RefundRun where
  usage : SubUsage
  back : ℤ
  returned : Bool

namespace RefundRun

def init (db : Subscriptions) : RefundRun := ⟨SubUsage.init db, 0, false⟩

def usedFor (records : Table SubscriptionPreConsumeRecord.requestId) (s : SubUsage) : ℤ :=
  (records.find requestId).elim 0 fun record => s.used record.userSubscriptionId

def step (requestId : String) (s : RefundRun) (e : UsageEvent) : RefundRun :=
  let usage := s.usage.step e
  let records := s.usage.db.records
  match e with
  | .refund r f =>
    if r = requestId then
      { usage := usage
        back := s.back + (usedFor requestId records s.usage - usedFor requestId records usage)
        returned := s.returned || (refundSubscriptionPreConsume s.usage.db r f).2.isOk }
    else { s with usage := usage }
  | _ => { s with usage := usage }

/-- A refund whose adjustment goes through has its record saved as well, and is not cut off at
zero. -/
def careful (s : RefundRun) : UsageEvent → Bool
  | .refund r f => r ≠ requestId || refundedAmount s.usage.db requestId f = 0 ||
      f.save = none && (s.usage.db.records.find requestId).all fun record =>
        record.preConsumed ≤ s.usage.used record.userSubscriptionId
  | _ => true

/-- The refunds have taken at most what was pre-consumed, and all of it once one has returned
without an error. -/
def idempotent (s : RefundRun) : Prop :=
  match s.usage.db.records.find requestId with
  | none => s.back = 0 ∧ s.returned = false
  | some record =>
    s.back ≤ record.preConsumed ∧ (s.returned = true → s.back = record.preConsumed)

end RefundRun

end AggreApi
