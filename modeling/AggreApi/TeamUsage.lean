import AggreApi.TaskBilling

/-!
# What the members of a team have used

The requests of team tokens over the tables they share. Each opens a session on a subscription of
its team, which it then settles or refunds, and a task it has submitted may be refunded or
recalculated later, by the subscription alone. `Settle` adds to the counter of the member; what each
request has taken from the subscription is summed up beside it.
-/

namespace AggreApi

structure TeamRequest where
  info : RelayInfo
  session : BillingSession
  job : Bool
  net : ℤ

/-- What happens to a request once its session is open. -/
inductive TeamAction
  | settle (actualQuota : ℤ) (f : SettleFaults)
  | refund
  | refundJob (f : RefundJobFaults)
  | refundTask (t : SubmittedTask) (quota : ℤ) (f : TaskBillingFaults)
  | recalculateTask (t : SubmittedTask) (quota actualQuota : ℤ) (f : TaskBillingFaults)

namespace TeamRequest

def account (r : TeamRequest) : Account := r.session.funding.account

variable (r : TeamRequest)

def charge (before after : Db) : TeamRequest :=
  { r with net := r.net + (after.spent r.account - before.spent r.account) }

def task (t : SubmittedTask) (quota : ℤ) : Task := relayedTask r.info (some r.session) quota t

def act (db : Db) (r : TeamRequest) : TeamAction → Db × TeamRequest
  | .settle actualQuota f =>
    let x := r.session.settle r.info f actualQuota db
    (x.1, { r.charge db x.1 with session := x.2.1 })
  | .refund =>
    let x := r.session.refund
    (db, { r with session := x.1, job := r.job || x.2 })
  | .refundJob f =>
    if r.job then
      let db' := r.session.refundJob r.info f db
      (db', { r.charge db db' with job := false })
    else (db, r)
  | .refundTask t quota f =>
    let db' := (TaskBilling.refundTaskQuota f (r.task t quota) db).1
    (db', r.charge db db')
  | .recalculateTask t quota actualQuota f =>
    let db' := (TaskBilling.recalculateTaskQuota f (r.task t quota) actualQuota db).1
    (db', r.charge db db')

def finished : Bool := r.session.settled || r.session.refunded && !r.job

def countsFor (member : ℕ × ℕ) (r : TeamRequest) : Bool :=
  !r.info.isPlayground && (r.info.tokenTeamId, r.info.userId) = member

def debited (member : ℕ × ℕ) (r : TeamRequest) : ℤ :=
  if r.finished && r.countsFor member then r.net else 0

end TeamRequest

structure TeamUsage where
  db : Db
  requests : List TeamRequest

inductive TeamUsageEvent
  | request (env : SubscriptionEnv) (reads : BillingReads) (f : OpenFaults) (info : RelayInfo)
      (quota : ℤ)
  | act (i : ℕ) (a : TeamAction)

namespace TeamUsage

def init (db : Db) : TeamUsage := ⟨db, []⟩

/-- A request of a team's token; one that does not come back is as one not made. -/
def request (cfg : BillingConfig) (s : TeamUsage) (env : SubscriptionEnv) (reads : BillingReads)
    (f : OpenFaults) (info : RelayInfo) (quota : ℤ) : TeamUsage :=
  if info.tokenTeamId = 0 then s
  else match newBillingSession cfg env reads f info quota s.db with
    | none => s
    | some (db, .error _) => { s with db := db }
    | some (db, .ok session) =>
      let net := db.spent session.funding.account - s.db.dueSpent env session.funding.account
      ⟨db, s.requests ++ [⟨info, session, false, net⟩]⟩

def step (cfg : BillingConfig) (s : TeamUsage) : TeamUsageEvent → TeamUsage
  | .request env reads f info quota => s.request cfg env reads f info quota
  | .act i a =>
    match s.requests[i]? with
    | none => s
    | some r =>
      let x := r.act s.db a
      ⟨x.1, s.requests.set i x.2⟩

def debited (s : TeamUsage) (member : ℕ × ℕ) : ℤ :=
  (s.requests.map (TeamRequest.debited member)).sum

end TeamUsage

end AggreApi
