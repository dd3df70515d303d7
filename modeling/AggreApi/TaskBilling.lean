import AggreApi.BillingLedger
import AggreApi.TaskPolling

/-!
# The billing of an asynchronous task

From `RelayTask` (`controller/relay.go`) to the end of polling: each attempt to submit may open the
billing session, a submission settles it and inserts the task row with the final quota, and the
poll that ends the task refunds or recalculates by that row (`service/task_billing.go`). In between
the tables belong to everyone.
-/

namespace AggreApi

structure TaskBillingFaults where
  funding : Option String
  tokenKey : Bool
  token : Option String
  deriving DecidableEq, Repr

variable (f : TaskBillingFaults) (info : RelayInfo)

namespace TaskBilling

def taskIsSubscription (task : Task) : Bool :=
  task.privateData.billingSource = .subscription && 0 < task.privateData.subscriptionId

def taskAdjustFunding (task : Task) (delta : ℤ) (err : Option String) (db : Db) :
    Except String Db :=
  if taskIsSubscription task then
    Funding.adjustSub db task.privateData.subscriptionId delta err
  else db.adjustUserQuota task.userId delta err

def taskAdjustTokenQuota (task : Task) (delta : ℤ) (db : Db) : Db :=
  if task.privateData.tokenId = 0 ∨ delta = 0 ∨ f.tokenKey then db
  else match db.adjustTokenQuota task.privateData.tokenId delta f.token with
    | .ok db => db
    | .error _ => db

/-- `RefundTaskQuota`; the flag says whether the funding source was given the quota back. -/
def refundTaskQuota (task : Task) (db : Db) : Db × Bool :=
  if task.quota = 0 then (db, true)
  else match taskAdjustFunding task (-task.quota) f.funding db with
    | .error _ => (db, false)
    | .ok db => (taskAdjustTokenQuota f task (-task.quota) db, true)

/-- `RecalculateTaskQuota`: the task is brought to the actual quota, if the funding source is. -/
def recalculateTaskQuota (task : Task) (actualQuota : ℤ) (db : Db) : Db × Task :=
  if actualQuota ≤ 0 then (db, task)
  else
    let quotaDelta := actualQuota - task.quota
    if quotaDelta = 0 then (db, task)
    else match taskAdjustFunding task quotaDelta f.funding db with
      | .error _ => (db, task)
      | .ok db => (taskAdjustTokenQuota f task quotaDelta db, { task with quota := actualQuota })

end TaskBilling

def Task.account (task : Task) : Account :=
  if TaskBilling.taskIsSubscription task then .subscription task.privateData.subscriptionId
  else .wallet task.userId

/-- One pass of the retry loop, up to the request upstream. -/
structure TaskAttempt where
  env : SubscriptionEnv
  reads : BillingReads
  faults : OpenFaults
  freeModel : Bool
  quota : ℤ

structure SubmittedTask where
  id : ℕ
  taskID : String
  platform : String
  channelId : ℕ
  action : String
  submitTime : ℤ
  upstreamTaskID : String
  billingContext : TaskBillingContext
  data : RawMessage
  deriving DecidableEq, Repr

/-- `InitTask` and the fields `RelayTask` sets after it. -/
def relayedTask (session : Option BillingSession) (quota : ℤ) (t : SubmittedTask) : Task where
  id := t.id
  taskID := t.taskID
  platform := t.platform
  userId := info.userId
  channelId := t.channelId
  quota := quota
  action := t.action
  status := .notStart
  failReason := ""
  submitTime := t.submitTime
  startTime := 0
  finishTime := 0
  progress := "0%"
  privateData :=
    { upstreamTaskID := t.upstreamTaskID
      resultURL := ""
      billingSource := (syncRelayInfo session).billingSource
      subscriptionId := (syncRelayInfo session).subscriptionId
      tokenId := info.tokenId
      billingContext := some t.billingContext }
  data := t.data

/-- Being submitted, given up, waiting, and polled to its end, with or without a refund. -/
inductive TaskPhase
  | submitting
  | failed
  | inserted (task : Task)
  | closed
  | refunded
  deriving DecidableEq, Repr

/-- `ready` says that the last attempt passed its charge, `net` is what the task has taken. -/
structure TaskLife where
  db : Db
  session : Option BillingSession
  ready : Bool
  phase : TaskPhase
  net : ℤ

inductive TaskEvent
  | attempt (a : TaskAttempt)
  | fail (f : RefundJobFaults)
  | submit (t : SubmittedTask) (quota : ℤ) (f : SettleFaults) (insertErr : Bool)
  | pollFailure (f : TaskBillingFaults)
  | pollSuccess (actualQuota : ℤ) (f : TaskBillingFaults)
  | others (db : Db)

namespace TaskLife

def init (db : Db) : TaskLife := ⟨db, none, false, .submitting, 0⟩

def account (info : RelayInfo) (s : TaskLife) : Account :=
  match s.session with
  | some session => session.funding.account
  | none => .wallet info.userId

def charge (account : Account) (s : TaskLife) (db : Db) : TaskLife :=
  { s with db := db, net := s.net + (db.spent account - s.db.spent account) }

/-- The charge of an attempt, made once and not for a free model. -/
def attempt (cfg : BillingConfig) (info : RelayInfo) (s : TaskLife) (a : TaskAttempt) : TaskLife :=
  if s.session.isSome || a.freeModel then { s with ready := true }
  else match newBillingSession cfg a.env a.reads a.faults { info with forcePreConsume := true }
      a.quota s.db with
    | none => s
    | some (db, .error _) => { s with db := db, ready := false }
    | some (db, .ok session) =>
      { s with
        db := db
        session := some session
        ready := true
        net := s.net + (db.spent session.funding.account -
          s.db.dueSpent a.env session.funding.account) }

/-- The end of a submission that failed: the deferred `Refund`. -/
def fail (s : TaskLife) (f : RefundJobFaults) : TaskLife :=
  match s.session with
  | none => { s with phase := .failed }
  | some session =>
    let r := session.refund
    let db := if r.2 then r.1.refundJob info f s.db else s.db
    { s.charge session.funding.account db with session := some r.1, phase := .failed }

/-- The error of the settlement is only logged, and the row gets the final quota all the same. -/
def submit (s : TaskLife) (t : SubmittedTask) (quota : ℤ) (f : SettleFaults) (insertErr : Bool) :
    TaskLife :=
  let r := settleBilling info f quota s.db s.session
  { s.charge (s.account info) r.1 with
    session := r.2.1
    phase := if insertErr then .closed else .inserted (relayedTask info s.session quota t) }

def step (cfg : BillingConfig) (info : RelayInfo) (s : TaskLife) (e : TaskEvent) : TaskLife :=
  match s.phase, e with
  | _, .others db => { s with db := db }
  | .submitting, .attempt a => s.attempt cfg info a
  | .submitting, .fail f => s.fail info f
  | .submitting, .submit t quota f insertErr =>
    if s.ready then s.submit info t quota f insertErr else s
  | .inserted task, .pollFailure f =>
    let r := TaskBilling.refundTaskQuota f task s.db
    { s.charge task.account r.1 with phase := if r.2 then .refunded else .closed }
  | .inserted task, .pollSuccess actualQuota f =>
    { s.charge task.account (TaskBilling.recalculateTaskQuota f task actualQuota s.db).1 with
      phase := .closed }
  | _, _ => s

end TaskLife

end AggreApi
