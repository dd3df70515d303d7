import AggreApi.Lib.Table

/-!
# Task rows

The `tasks` table of `model/task.go`: the row, its snapshot, the two selections of the polling
loop and the three ways a row is written. `updateWithStatus` is the only write that looks at the
stored status; `update` saves the whole row and `taskBulkUpdateByID` sets columns by id.
-/

namespace AggreApi

/-- `TaskStatus`, a string type with named values. -/
inductive TaskStatus
  | empty
  | notStart
  | submitted
  | queued
  | inProgress
  | failure
  | success
  | unknown
  | other (s : String)
  deriving DecidableEq, Repr

def TaskStatus.isDone (s : TaskStatus) : Bool := s = .success || s = .failure

/-- A `json.RawMessage`. -/
abbrev RawMessage := List UInt8

/-- The values `BillingSource` takes. -/
inductive BillingSource
  | none
  | wallet
  | subscription
  deriving DecidableEq, Repr

structure TaskBillingContext where
  perCallBilling : Bool
  originModelName : String
  deriving DecidableEq, Repr

structure TaskPrivateData where
  upstreamTaskID : String
  resultURL : String
  billingSource : BillingSource
  subscriptionId : ℕ
  tokenId : ℕ
  billingContext : Option TaskBillingContext
  deriving DecidableEq, Repr

structure Task where
  id : ℕ
  taskID : String
  platform : String
  userId : ℕ
  channelId : ℕ
  quota : ℤ
  action : String
  status : TaskStatus
  failReason : String
  submitTime : ℤ
  startTime : ℤ
  finishTime : ℤ
  progress : String
  privateData : TaskPrivateData
  data : RawMessage
  deriving DecidableEq, Repr

variable (t : Task)

namespace Task

def getUpstreamTaskID : String :=
  if t.privateData.upstreamTaskID ≠ "" then t.privateData.upstreamTaskID else t.taskID

def getResultURL : String :=
  if t.privateData.resultURL ≠ "" then t.privateData.resultURL else t.failReason

end Task

structure TaskSnapshot where
  status : TaskStatus
  progress : String
  startTime : ℤ
  finishTime : ℤ
  failReason : String
  resultURL : String
  data : RawMessage
  deriving DecidableEq, Repr

def Task.snapshot : TaskSnapshot where
  status := t.status
  progress := t.progress
  startTime := t.startTime
  finishTime := t.finishTime
  failReason := t.failReason
  resultURL := t.privateData.resultURL
  data := t.data

abbrev TaskTable := Table Task.id

namespace TaskTable

/-- The filter both selections share: `progress != '100%'` and a status that is not final. -/
def unfinished : Bool := t.progress ≠ "100%" && !t.status.isDone

variable (tb : TaskTable)

def getTimedOutUnfinishedTasks (cutoffUnix : ℤ) (limit : ℕ) : List Task :=
  ((tb.rows.filter fun t => unfinished t && t.submitTime < cutoffUnix).insertionSort
    fun a b => a.submitTime ≤ b.submitTime).take limit

def getAllUnFinishSyncTasks (limit : ℕ) : List Task :=
  ((tb.rows.filter unfinished).insertionSort fun a b => a.id ≤ b.id).take limit

/-- The conditional update guarded by `fromStatus`. `none` is a database error; otherwise the
flag says whether a row was affected. -/
def updateWithStatus (dbErr : Bool) (t : Task) (fromStatus : TaskStatus) :
    TaskTable × Option Bool :=
  if dbErr then (tb, none)
  else
    let r := tb.cas t fun row => row.status = fromStatus
    (r.1, some r.2)

def update (dbErr : Bool) (t : Task) : TaskTable × Bool :=
  if dbErr then (tb, false) else (tb.put t, true)

def failColumns (reason : Option String) (t : Task) : Task :=
  { t with status := .failure, progress := "100%", failReason := reason.getD t.failReason }

def taskBulkUpdateByID (dbErr : Bool) (ids : List ℕ) (reason : Option String) : TaskTable :=
  if dbErr then tb
  else tb.map (fun t => if t.id ∈ ids then failColumns reason t else t) fun t => by
    split_ifs <;> rfl

end TaskTable

end AggreApi
