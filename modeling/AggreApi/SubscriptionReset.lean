import AggreApi.UserGroup

/-!
# Resets and the maintenance pass

The reset of one subscription at a time, the boundaries it is made at, and the pass
`runSubscriptionQuotaResetOnce` that first expires and then resets the subscriptions that are due,
in batches, until a batch comes back short. The clock does not move during a pass.
-/

namespace AggreApi

variable (env : SubscriptionEnv) (sub : GroupSubscription) (cal : Calendar)
  (plan : SubscriptionPlan) (db : GroupDb) (now : ℤ)

/-- Assumed of the package `time`: the next day, week and month begin later. -/
def Calendar.Ahead : Prop := ∀ t, t < cal.nextDay t ∧ t < cal.nextWeek t ∧ t < cal.nextMonth t

def SubscriptionPlan.accepted : Bool :=
  ¬(plan.quotaResetPeriod = .custom ∧ plan.quotaResetCustomSeconds ≤ 0)

/-- The duration of a custom period fits an `int64` of nanoseconds. -/
def SubscriptionPlan.nonOverflowing : Bool :=
  plan.quotaResetPeriod = .custom → plan.quotaResetCustomSeconds * 1000000000 < 2 ^ 63

def UserSubscription.resetBase (sub : UserSubscription) : ℤ :=
  if sub.lastResetTime ≤ 0 then sub.startTime else sub.lastResetTime

def resetAt (sub : UserSubscription) : Option (UserSubscription × Bool) :=
  maybeResetUserSubscriptionWithPlanTx ⟨now, cal, fun _ => .error "", now.toNat + 2⟩ sub plan

/-- A row whose reset fields come from its creation and from resets under one plan. -/
inductive ResetHistory (cal : Calendar) (plan : SubscriptionPlan) : ℤ → UserSubscription → Prop
  | created {sub : UserSubscription} (start : 0 < sub.startTime)
      (last : sub.lastResetTime =
        if 0 < calcNextResetTime cal plan sub.startTime sub.endTime then sub.startTime else 0)
      (next : sub.nextResetTime = calcNextResetTime cal plan sub.startTime sub.endTime) :
      ResetHistory cal plan sub.startTime sub
  | consumed {t t' : ℤ} {sub : UserSubscription} (used : ℤ) (h : ResetHistory cal plan t sub)
      (hle : t ≤ t') : ResetHistory cal plan t' { sub with amountUsed := used }
  | reset {t t' : ℤ} {sub sub' : UserSubscription} {saved : Bool}
      (h : ResetHistory cal plan t sub) (hle : t ≤ t')
      (hreset : resetAt cal plan t' sub = some (sub', saved)) : ResetHistory cal plan t' sub'

def nextBoundary (t : ℤ) : ℤ := calcNextResetTime cal plan t 0

def ResetBoundary (start t : ℤ) : Prop := ∃ k : ℕ, t = (nextBoundary cal plan)^[k + 1] start

def notAfterEnd (endUnix t : ℤ) : Prop := 0 < endUnix → t ≤ endUnix

def subscriptionResetBatchSize : ℕ := 300

namespace GroupSubscription

/-- The rows `ResetDueSubscriptions` looks for. -/
def resetDue (sub : GroupSubscription) : Bool :=
  sub.status = .active ∧ 0 < sub.nextResetTime ∧ sub.nextResetTime ≤ now

def moves : Bool :=
  match env.plan sub.planId with
  | .ok plan =>
    let next := calcNextResetTime env.cal plan sub.resetBase sub.endTime
    0 < next ∧ next ≤ env.now
  | .error _ => false

def stuck : Bool := sub.resetDue env.now ∧ (env.plan sub.planId).isOk ∧ sub.moves env = false

end GroupSubscription

namespace GroupDb

def resetDueCount : ℕ := db.subs.rows.countP fun s => s.resetDue now

def expireDueCount : ℕ := db.subs.rows.countP fun s => s.due now

def resetBatch (limit : ℕ) : List GroupSubscription :=
  ((db.subs.rows.filter fun s => s.resetDue now).insertionSort fun a b =>
    a.nextResetTime ≤ b.nextResetTime).take limit

/-- One turn of `ResetDueSubscriptions`; `none` where the reset does not return. -/
def resetOne (r : GroupDb × ℕ) : Option (GroupDb × ℕ) :=
  match env.plan sub.planId with
  | .error _ => some r
  | .ok plan =>
    match r.1.subs.find sub.id with
    | none => some r
    | some locked =>
      if 0 < locked.nextResetTime ∧ locked.nextResetTime ≤ env.now then
        match maybeResetUserSubscriptionWithPlanTx env locked.toUserSubscription plan with
        | none => none
        | some (row, saved) =>
          some (if saved then
              { r.1 with subs := r.1.subs.put { locked with toUserSubscription := row } }
            else r.1, r.2 + 1)
      else some r

end GroupDb

def resetDueSubscriptions (limit : ℕ) : Option (GroupDb × ℕ) :=
  (db.resetBatch env.now limit).foldlM (fun r sub => GroupDb.resetOne env sub r) (db, 0)

/-- The first loop of the pass; `none` where the turns run out. -/
def expireLoop (genv : GroupEnv) (now : ℤ) : ℕ → GroupDb → Option GroupDb
  | 0, _ => none
  | turns + 1, db =>
    let r := expireDueSubscriptions genv db subscriptionResetBatchSize now
    if r.2 < subscriptionResetBatchSize then some r.1 else expireLoop genv now turns r.1

def resetLoop (env : SubscriptionEnv) : ℕ → GroupDb → Option GroupDb
  | 0, _ => none
  | turns + 1, db =>
    match resetDueSubscriptions env db subscriptionResetBatchSize with
    | none => none
    | some r => if r.2 < subscriptionResetBatchSize then some r.1 else resetLoop env turns r.1

def runSubscriptionQuotaResetOnce (genv : GroupEnv) (env : SubscriptionEnv) (turns : ℕ)
    (db : GroupDb) : Option GroupDb :=
  (expireLoop genv env.now turns db).bind fun db => resetLoop env turns db

end AggreApi
