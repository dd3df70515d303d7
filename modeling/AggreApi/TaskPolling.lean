import AggreApi.Task

/-!
# What each poll makes of a task

The bodies of `sweepTimedOutTasks`, `updateVideoSingleTask`, `updateSunoTasks`
(`service/task_polling.go`) and `tryRealtimeFetch` (`relay/relay_task.go`) up to their write: the
task as it was read and the answer give the task to write and the billing to do.
-/

namespace AggreApi

structure PollConfig where
  taskTimeoutMinutes : ℤ
  taskQueryLimit : ℕ
  serverAddress : String
  marshal : RawMessage → RawMessage

structure TaskInfo where
  taskID : String
  status : TaskStatus
  reason : String
  url : String
  progress : String
  totalTokens : ℤ
  deriving DecidableEq, Repr

def failTaskInfo (reason : String) : TaskInfo where
  taskID := ""
  status := .failure
  reason := reason
  url := ""
  progress := ""
  totalTokens := 0

structure TaskResponse (τ : Type) where
  code : String
  data : τ

def TaskResponse.isSuccess {τ : Type} (r : TaskResponse τ) : Bool := r.code = "success"

structure OpenAIError where
  code : String

structure Response where
  taskResponse : Option (TaskResponse Task)
  parseTaskResult : Except String TaskInfo
  errorResponse : Option (Option OpenAIError)
  redacted : RawMessage

def legacyTaskCutoff : ℤ := 1740182400

def isLegacy (t : Task) : Bool := 0 < t.submitTime && t.submitTime < legacyTaskCutoff

def timeoutReason (minutes : ℤ) : String := "任务超时（" ++ toString minutes ++ "分钟）"

def legacyReason : String := "任务超时（旧系统遗留任务，不进行退款，请联系管理员）"

variable (cfg : PollConfig)

def sweepTask (now : ℤ) (task : Task) : Task :=
  { task with
    status := .failure
    progress := "100%"
    finishTime := now
    failReason := if isLegacy task then legacyReason else timeoutReason cfg.taskTimeoutMinutes }

def sweepRefunds (task : Task) : Bool := !isLegacy task && task.quota ≠ 0

def buildProxyURL (taskID : String) : String :=
  cfg.serverAddress ++ "/v1/videos/" ++ taskID ++ "/content"

/-- `strings.HasPrefix(url, "data:")`. -/
def isDataURI (url : String) : Bool := "data:".toList.isPrefixOf url.toList

/-- The answer as another instance's task, else as the adaptor parses it. -/
def parseVideoResponse (resp : Response) : Option TaskInfo :=
  match resp.taskResponse with
  | some r =>
    if r.isSuccess then
      some { taskID := r.data.taskID, status := r.data.status, reason := r.data.failReason,
             url := r.data.getResultURL, progress := r.data.progress, totalTokens := 0 }
    else resp.parseTaskResult.toOption
  | none => resp.parseTaskResult.toOption

/-- A rate limit leaves the task for the next round (`none`), any other error that decodes fails
it. -/
def resolveEmptyStatus (resp : Response) (ti : TaskInfo) : Option TaskInfo :=
  if ti.status ≠ .empty then some ti
  else match resp.errorResponse with
    | none => some ti
    | some none => some (failTaskInfo "upstream returned unrecognized message")
    | some (some e) =>
      if e.code = "429" then none else some (failTaskInfo "upstream returned error")

structure VideoDecision where
  result : TaskInfo
  shouldRefund : Bool
  shouldSettle : Bool

def videoResultURL (task : Task) (ti : TaskInfo) : String :=
  if isDataURI ti.url then buildProxyURL cfg task.taskID
  else if ti.url ≠ "" then ti.url
  else buildProxyURL cfg task.taskID

def orProgress (ti : TaskInfo) (progress : String) : String :=
  if ti.progress ≠ "" then ti.progress else progress

/-- The status switch; a status it does not know ends the poll with the task carrying it. -/
def applyTaskResult (now : ℤ) (task : Task) (ti : TaskInfo) : Task × Option VideoDecision :=
  match ti.status with
  | .submitted =>
    ({ task with status := .submitted, progress := orProgress ti "10%" }, some ⟨ti, false, false⟩)
  | .queued =>
    ({ task with status := .queued, progress := orProgress ti "20%" }, some ⟨ti, false, false⟩)
  | .inProgress =>
    ({ task with
        status := .inProgress
        progress := orProgress ti "30%"
        startTime := if task.startTime = 0 then now else task.startTime },
      some ⟨ti, false, false⟩)
  | .success =>
    ({ task with
        status := .success
        progress := orProgress ti "100%"
        finishTime := if task.finishTime = 0 then now else task.finishTime
        privateData := { task.privateData with resultURL := videoResultURL cfg task ti } },
      some ⟨ti, false, true⟩)
  | .failure =>
    ({ task with
        status := .failure
        progress := "100%"
        finishTime := if task.finishTime = 0 then now else task.finishTime
        failReason := ti.reason },
      some ⟨{ ti with progress := "100%" }, task.quota ≠ 0, false⟩)
  | s => ({ task with status := s }, none)

/-- `updateVideoSingleTask` from the body to its write; `none` where it returned before. -/
def videoAnswer (now : ℤ) (task : Task) (resp : Response) : Task × Option VideoDecision :=
  match parseVideoResponse resp with
  | none => (task, none)
  | some ti =>
    let task := { task with data := resp.redacted }
    match resolveEmptyStatus resp ti with
    | none => (task, none)
    | some ti => applyTaskResult cfg now task ti

/-- The three ways a poll ends. -/
inductive WriteKind
  | guarded
  | plain
  | skip
  deriving DecidableEq

def writeKind (snap : TaskSnapshot) (task : Task) : WriteKind :=
  if task.status.isDone && snap.status ≠ task.status then .guarded
  else if snap ≠ task.snapshot then .plain
  else .skip

structure SunoDataResponse where
  taskID : String
  status : TaskStatus
  failReason : String
  submitTime : ℤ
  startTime : ℤ
  finishTime : ℤ
  data : RawMessage
  deriving DecidableEq, Repr

def sortedBytes (b : RawMessage) : RawMessage := b.insertionSort (· ≤ ·)

def taskNeedsUpdate (oldTask : Task) (newTask : SunoDataResponse) : Bool :=
  oldTask.submitTime ≠ newTask.submitTime ||
  oldTask.startTime ≠ newTask.startTime ||
  oldTask.finishTime ≠ newTask.finishTime ||
  oldTask.status ≠ newTask.status ||
  oldTask.failReason ≠ newTask.failReason ||
  (oldTask.status.isDone && oldTask.progress ≠ "100%") ||
  sortedBytes (cfg.marshal oldTask.data) ≠ sortedBytes (cfg.marshal newTask.data)

def sunoStatus (task : Task) (item : SunoDataResponse) : TaskStatus :=
  if item.status ≠ .empty then item.status else task.status

def sunoFails (task : Task) (item : SunoDataResponse) : Bool :=
  item.failReason ≠ "" || sunoStatus task item = .failure

def applySunoItem (task : Task) (item : SunoDataResponse) : Task :=
  { task with
    status := sunoStatus task item
    failReason := if item.failReason ≠ "" then item.failReason else task.failReason
    submitTime := if item.submitTime ≠ 0 then item.submitTime else task.submitTime
    startTime := if item.startTime ≠ 0 then item.startTime else task.startTime
    finishTime := if item.finishTime ≠ 0 then item.finishTime else task.finishTime
    progress :=
      if sunoFails task item || item.status = .success then "100%" else task.progress
    data := item.data }

def applyRealtime (task : Task) (ti : TaskInfo) : Task :=
  let status := if ti.status ≠ .empty then ti.status else task.status
  { task with
    status := status
    progress := orProgress ti task.progress
    privateData := { task.privateData with
      resultURL :=
        if isDataURI ti.url then task.privateData.resultURL
        else if ti.url ≠ "" then ti.url
        else if status = .success then buildProxyURL cfg task.taskID
        else task.privateData.resultURL } }

/-- What `RefundTaskQuota` gives back: the quota, unless it is zero or the adjustment fails. -/
def refundTaskQuota (task : Task) (fundingErr : Bool) : ℤ := if fundingErr then 0 else task.quota

end AggreApi
