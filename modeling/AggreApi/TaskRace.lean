import AggreApi.Lib.Run
import AggreApi.TaskPolling

/-!
# Polls and fetches racing on the task table

Any number of runs of `sweepTimedOutTasks`, `updateVideoSingleTask` and `tryRealtimeFetch` are in
flight at once: a run reads its row, later does its one conditional update, and may bill after that.
The log records which run moved which row, and which run billed which task.
-/

namespace AggreApi

/-- Which function a run executes. -/
inductive Job
  | sweep
  | video
  | fetch
  deriving DecidableEq, Repr

/-- How far a run has come. -/
inductive Phase
  | read (task : Task)
  | bill (task : Task) (shouldRefund shouldSettle : Bool)
  | over
  deriving DecidableEq, Repr

structure Worker where
  job : Job
  phase : Phase
  deriving DecidableEq, Repr

/-- Run `k` changed the row of task `id`, gave `amount` back, or settled it. -/
inductive Entry
  | moved (k : ℕ) (job : Job) (id : ℕ) (fromStatus toStatus : TaskStatus)
  | refund (k : ℕ) (job : Job) (id : ℕ) (amount : ℤ)
  | settle (k : ℕ) (job : Job) (id : ℕ)
  deriving DecidableEq, Repr

def Entry.refundOf (id : ℕ) : Entry → ℤ
  | .refund _ _ id' amount => if id' = id then amount else 0
  | _ => 0

structure Race where
  tasks : TaskTable
  workers : List Worker
  log : List Entry

/-- `sweepRead`, `pollRead` and `fetchRead` start runs on the rows their query returns. -/
inductive RaceEvent
  | sweepRead (now : ℤ)
  | pollRead
  | fetchRead (id : ℕ)
  | sweepWrite (k : ℕ) (now : ℤ) (dbErr : Bool)
  | videoWrite (k : ℕ) (now : ℤ) (resp : Response) (dbErr : Bool)
  | fetchWrite (k : ℕ) (ti : TaskInfo) (dbErr : Bool)
  | bill (k : ℕ) (fundingErr : Bool)

namespace Race

variable (s : Race)

def start (job : Job) (rows : List Task) : Race :=
  { s with workers := s.workers ++ rows.map fun t => ⟨job, .read t⟩ }

def goOn (k : ℕ) (job : Job) (phase : Phase) : Race :=
  { s with workers := s.workers.set k ⟨job, phase⟩ }

/-- Run `k` does its conditional update of a row it read in `fromStatus`. -/
def write (k : ℕ) (job : Job) (dbErr : Bool) (fromStatus : TaskStatus) (task : Task) (won : Phase) :
    Race :=
  match s.tasks.updateWithStatus dbErr task fromStatus with
  | (tasks, some true) =>
    { tasks := tasks
      workers := s.workers.set k ⟨job, won⟩
      log := s.log ++ [.moved k job task.id fromStatus task.status] }
  | (tasks, _) => { s with tasks := tasks, workers := s.workers.set k ⟨job, .over⟩ }

def sweepWrite (cfg : PollConfig) (s : Race) (k : ℕ) (task : Task) (now : ℤ) (dbErr : Bool) :
    Race :=
  s.write k .sweep dbErr task.status (sweepTask cfg now task)
    (if sweepRefunds task then .bill (sweepTask cfg now task) true false else .over)

/-- The rest of a video run after its row is read and the provider has answered. -/
def videoWrite (cfg : PollConfig) (s : Race) (k : ℕ) (task : Task) (now : ℤ) (resp : Response)
    (dbErr : Bool) : Race :=
  match videoAnswer cfg now task resp with
  | (_, none) => s.goOn k .video .over
  | (task', some d) =>
    match writeKind task.snapshot task' with
    | .guarded =>
      s.write k .video dbErr task.status task' (.bill task' d.shouldRefund d.shouldSettle)
    | .plain =>
      (s.write k .video dbErr task.status task' .over).goOn k .video
        (.bill task' d.shouldRefund d.shouldSettle)
    | .skip => s.goOn k .video (.bill task' d.shouldRefund d.shouldSettle)

/-- The rest of a fetch after its row is read and the provider has answered. -/
def fetchWrite (cfg : PollConfig) (s : Race) (k : ℕ) (task : Task) (ti : TaskInfo)
    (dbErr : Bool) : Race :=
  let task' := applyRealtime cfg task ti
  if task.snapshot ≠ task'.snapshot then s.write k .fetch dbErr task.status task' .over
  else s.goOn k .fetch .over

def bill (k : ℕ) (job : Job) (task : Task) (shouldRefund shouldSettle : Bool) (fundingErr : Bool) :
    Race :=
  { s with
    workers := s.workers.set k ⟨job, .over⟩
    log := s.log ++
      ((if shouldSettle then [Entry.settle k job task.id] else []) ++
       if shouldRefund then [Entry.refund k job task.id (refundTaskQuota task fundingErr)]
       else []) }

/-- One event. An event that names a run which is not at that point does nothing. -/
def step (cfg : PollConfig) (s : Race) : RaceEvent → Race
  | .sweepRead now =>
    if cfg.taskTimeoutMinutes ≤ 0 then s
    else s.start .sweep
      (s.tasks.getTimedOutUnfinishedTasks (now - cfg.taskTimeoutMinutes * 60) 100)
  | .pollRead => s.start .video (s.tasks.getAllUnFinishSyncTasks cfg.taskQueryLimit)
  | .fetchRead id => s.start .fetch (s.tasks.find id).toList
  | .sweepWrite k now dbErr =>
    match s.workers[k]? with
    | some ⟨.sweep, .read task⟩ => s.sweepWrite cfg k task now dbErr
    | _ => s
  | .videoWrite k now resp dbErr =>
    match s.workers[k]? with
    | some ⟨.video, .read task⟩ => s.videoWrite cfg k task now resp dbErr
    | _ => s
  | .fetchWrite k ti dbErr =>
    match s.workers[k]? with
    | some ⟨.fetch, .read task⟩ => s.fetchWrite cfg k task ti dbErr
    | _ => s
  | .bill k fundingErr =>
    match s.workers[k]? with
    | some ⟨job, .bill task shouldRefund shouldSettle⟩ =>
      s.bill k job task shouldRefund shouldSettle fundingErr
    | _ => s

def init (tasks : TaskTable) : Race := ⟨tasks, [], []⟩

/-- What `RefundTaskQuota` gave back for a task so far. -/
def refunded (id : ℕ) : ℤ := (s.log.map (Entry.refundOf id)).sum

def isDone (s : Race) (id : ℕ) : Bool := (s.tasks.find id).any (·.status.isDone)

/-- A fetch that read a finished row gets an unfinished answer, and its update goes through. -/
def resurrects : RaceEvent → Bool
  | .fetchWrite k ti dbErr =>
    match s.workers[k]? with
    | some ⟨.fetch, .read task⟩ =>
      !dbErr && task.status.isDone && ti.status ≠ .empty && !ti.status.isDone &&
        (s.tasks.find task.id).any (·.status = task.status)
    | _ => false
  | _ => false

end Race

def RaceEvent.guarded : RaceEvent → Bool
  | .fetchRead _ => false
  | .fetchWrite _ _ _ => false
  | _ => true

def Entry.bills (id : ℕ) : Entry → Bool
  | .refund _ _ id' _ => id' = id
  | .settle _ _ id' => id' = id
  | .moved _ _ _ _ _ => false

def Entry.finishes (id : ℕ) : Entry → Bool
  | .moved _ _ id' fromStatus toStatus => id' = id && !fromStatus.isDone && toStatus.isDone
  | _ => false

end AggreApi
