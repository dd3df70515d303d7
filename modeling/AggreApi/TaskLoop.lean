import AggreApi.Lib.Run
import AggreApi.TaskPolling

/-!
# The polling loop

`TaskPollingLoop` of `service/task_polling.go`, statement by statement, with the fetches of users in
between. What is left to do in a round is a stack of acts; an event does the act on top, and also
says which key of a map comes next. A task of the round is one object in memory for the whole round.
-/

namespace AggreApi

/-- A task of the sweep, the selection, the platforms and channels still to be walked, a task of a
video channel, an item of a Suno answer. -/
inductive Act
  | sweep (task : Task)
  | query
  | platforms (ps : List String)
  | channels (platform : String) (cs : List ℕ)
  | video (platform upstreamID : String)
  | suno (item : SunoDataResponse)
  deriving DecidableEq

inductive ChannelAnswer
  | notFound
  | noAnswer
  | answer (items : List SunoDataResponse)

structure Loop where
  tasks : TaskTable
  mem : TaskTable
  todo : List Act
  fetches : List (Option Task)
  refunds : List (ℕ × ℤ)

/-- `wake` starts a round; the next six do the act on top; a fetch reads its row and later writes
it back. -/
inductive LoopEvent
  | wake (now : ℤ) (dbErr : Bool)
  | sweep (now : ℤ) (dbErr fundingErr : Bool)
  | query (dbErr : Bool)
  | platform (k : ℕ) (dbErr : Bool)
  | channel (k : ℕ) (answer : ChannelAnswer) (dbErr : Bool)
  | video (now : ℤ) (resp : Option Response) (actualQuota : Option ℤ) (dbErr fundingErr : Bool)
  | suno (dbErr fundingErr : Bool)
  | fetchRead (id : ℕ)
  | fetchWrite (k : ℕ) (ti : TaskInfo) (dbErr : Bool)

variable (cfg : PollConfig) (s : Loop) (mem : TaskTable)

namespace TaskTable

def none : TaskTable := ⟨[], List.nodup_nil⟩

theorem nodup_getAllUnFinishSyncTasks (tb : TaskTable) (limit : ℕ) :
    ((tb.getAllUnFinishSyncTasks limit).map Task.id).Nodup := by
  refine List.Nodup.sublist ((List.take_sublist _ _).map _) ?_
  refine ((List.perm_insertionSort _ _).map _).nodup_iff.2 ?_
  exact tb.nodup.sublist (List.filter_sublist.map _)

def selectUnfinished (tb : TaskTable) (limit : ℕ) : TaskTable :=
  ⟨tb.getAllUnFinishSyncTasks limit, tb.nodup_getAllUnFinishSyncTasks limit⟩

def ofPlatform (platform : String) : List Task :=
  mem.rows.filter fun t => t.platform = platform && t.getUpstreamTaskID ≠ ""

/-- The keys of `platformTask`. -/
def platforms : List String := (mem.rows.map Task.platform).dedup

/-- `taskM`: of two tasks with one upstream id the later one. -/
def taskM (platform upstreamID : String) : Option Task :=
  (mem.ofPlatform platform).reverse.find? fun t => t.getUpstreamTaskID = upstreamID

/-- The keys of `taskChannelM`. -/
def taskChannels (platform : String) : List ℕ :=
  ((mem.ofPlatform platform).map Task.channelId).dedup

def taskIds (platform : String) (channelId : ℕ) : List String :=
  ((mem.ofPlatform platform).filter (·.channelId = channelId)).map Task.getUpstreamTaskID

def nullTaskIds (platform : String) : List ℕ :=
  (mem.rows.filter fun t => t.platform = platform && t.getUpstreamTaskID = "").map Task.id

end TaskTable

def taskPlatformSuno : String := "suno"

def taskPlatformMidjourney : String := "mj"

def channelFailReason (platform : String) (channelId : ℕ) : String :=
  if platform = taskPlatformSuno then "获取渠道信息失败，请联系管理员，渠道ID：" ++ toString channelId
  else "Failed to get channel info, channel ID: " ++ toString channelId

namespace Loop

/-- `RefundTaskQuota`; a call that returns nothing leaves no record. -/
def refund (task : Task) (fundingErr : Bool) : Loop :=
  if task.quota = 0 || fundingErr then s
  else { s with refunds := s.refunds ++ [(task.id, refundTaskQuota task fundingErr)] }

/-- The start of a round: `sweepTimedOutTasks` up to its loop. -/
def wake (now : ℤ) (dbErr : Bool) : Loop :=
  let swept := if cfg.taskTimeoutMinutes ≤ 0 || dbErr then []
    else s.tasks.getTimedOutUnfinishedTasks (now - cfg.taskTimeoutMinutes * 60) 100
  { s with mem := .none, todo := swept.map .sweep ++ [.query] }

def sweep (task : Task) (now : ℤ) (dbErr fundingErr : Bool) : Loop :=
  match s.tasks.updateWithStatus dbErr (sweepTask cfg now task) task.status with
  | (tasks, some true) =>
    if sweepRefunds task then { s with tasks := tasks }.refund (sweepTask cfg now task) fundingErr
    else { s with tasks := tasks }
  | (tasks, _) => { s with tasks := tasks }

def query (dbErr : Bool) : Loop :=
  let mem := if dbErr then .none else s.tasks.selectUnfinished cfg.taskQueryLimit
  { s with mem := mem, todo := [.platforms mem.platforms] }

def platform (p : String) (dbErr : Bool) : Loop :=
  { s with
    tasks := s.tasks.taskBulkUpdateByID dbErr (s.mem.nullTaskIds p) none
    todo := (if p = taskPlatformMidjourney then [] else [.channels p (s.mem.taskChannels p)]) ++
      s.todo }

/-- `updateSunoTasks` and `updateVideoTasks` up to their loop over the answers or the tasks. -/
def channel (p : String) (c : ℕ) (answer : ChannelAnswer) (dbErr : Bool) : Loop :=
  match answer with
  | .notFound =>
    let failedIDs := (s.mem.taskIds p c).filterMap fun u => (s.mem.taskM p u).map Task.id
    { s with
      tasks := s.tasks.taskBulkUpdateByID dbErr failedIDs (some (channelFailReason p c)) }
  | .noAnswer => s
  | .answer items =>
    { s with
      todo := (if p = taskPlatformSuno then items.map .suno
        else (s.mem.taskIds p c).map (.video p)) ++ s.todo }

/-- A settlement leaves what it recalculated in the object, not in the row. -/
def bill (task : Task) (d : VideoDecision) (actualQuota : Option ℤ) (fundingErr : Bool) : Loop :=
  let s := if d.shouldSettle then
      { s with mem := s.mem.put { task with quota := actualQuota.getD task.quota } }
    else s
  if d.shouldRefund then s.refund task fundingErr else s

/-- `updateVideoSingleTask`; no response is a request that failed. -/
def video (p u : String) (now : ℤ) (resp : Option Response) (actualQuota : Option ℤ)
    (dbErr fundingErr : Bool) : Loop :=
  match s.mem.taskM p u, resp with
  | some task, some resp =>
    match videoAnswer cfg now task resp with
    | (task', none) => { s with mem := s.mem.put task' }
    | (task', some d) =>
      let w := s.tasks.updateWithStatus dbErr task' task.status
      let s := { s with mem := s.mem.put task' }
      match writeKind task.snapshot task' with
      | .guarded =>
        if w.2 = some true then { s with tasks := w.1 }.bill task' d actualQuota fundingErr
        else { s with tasks := w.1 }
      | .plain => { s with tasks := w.1 }.bill task' d actualQuota fundingErr
      | .skip => s.bill task' d actualQuota fundingErr
  | _, _ => s

/-- An item that names no task of the round ends the loop's goroutine with a nil dereference. -/
def suno (item : SunoDataResponse) (dbErr fundingErr : Bool) : Loop :=
  match s.mem.taskM taskPlatformSuno item.taskID with
  | none => { s with todo := [] }
  | some task =>
    if taskNeedsUpdate cfg task item then
      let task' := applySunoItem task item
      let s := if sunoFails task item then s.refund task' fundingErr else s
      { s with mem := s.mem.put task', tasks := (s.tasks.update dbErr task').1 }
    else s

def fetchWrite (k : ℕ) (task : Task) (ti : TaskInfo) (dbErr : Bool) : Loop :=
  let task' := applyRealtime cfg task ti
  { s with
    fetches := s.fetches.set k none
    tasks := if task.snapshot ≠ task'.snapshot then
        (s.tasks.updateWithStatus dbErr task' task.status).1
      else s.tasks }

def sweepTimedOutTasks (tasks : TaskTable) (now : ℤ) : TaskTable :=
  if cfg.taskTimeoutMinutes ≤ 0 then tasks
  else (tasks.getTimedOutUnfinishedTasks (now - cfg.taskTimeoutMinutes * 60) 100).foldl
    (fun tasks task => (tasks.updateWithStatus false (sweepTask cfg now task) task.status).1) tasks

def step : LoopEvent → Loop
  | .wake now dbErr => if s.todo = [] then s.wake cfg now dbErr else s
  | .sweep now dbErr fundingErr =>
    match s.todo with
    | .sweep task :: todo => { s with todo := todo }.sweep cfg task now dbErr fundingErr
    | _ => s
  | .query dbErr => if s.todo = [.query] then s.query cfg dbErr else s
  | .platform k dbErr =>
    match s.todo with
    | .platforms ps :: todo =>
      match ps[k]? with
      | some p => { s with todo := .platforms (ps.eraseIdx k) :: todo }.platform p dbErr
      | none => if ps = [] then { s with todo := todo } else s
    | _ => s
  | .channel k answer dbErr =>
    match s.todo with
    | .channels p cs :: todo =>
      match cs[k]? with
      | some c => { s with todo := .channels p (cs.eraseIdx k) :: todo }.channel p c answer dbErr
      | none => if cs = [] then { s with todo := todo } else s
    | _ => s
  | .video now resp actualQuota dbErr fundingErr =>
    match s.todo with
    | .video p u :: todo =>
      { s with todo := todo }.video cfg p u now resp actualQuota dbErr fundingErr
    | _ => s
  | .suno dbErr fundingErr =>
    match s.todo with
    | .suno item :: todo => { s with todo := todo }.suno cfg item dbErr fundingErr
    | _ => s
  | .fetchRead id => { s with fetches := s.fetches ++ (s.tasks.find id).toList.map some }
  | .fetchWrite k ti dbErr =>
    match s.fetches[k]? with
    | some (some task) => s.fetchWrite cfg k task ti dbErr
    | _ => s

def init (tasks : TaskTable) : Loop := ⟨tasks, .none, [], [], []⟩

def returned (id : ℕ) : List ℤ := (s.refunds.filter (·.1 = id)).map (·.2)

end Loop

end AggreApi
