import AggreApi.Proofs.TaskRound

/-!
# Refunds of the polling loop

A task that has failed has its charge back, once, and no task gets more back than its charge, in
runs that keep to what `Proofs.TaskRound` assumes; the runs at the end do not.
-/

namespace AggreApi

namespace Loop

/-- The task as `RelayTask` inserts it, in a loop that has not come upon it yet. -/
structure Inserted (s : Loop) (t : Task) : Prop where
  row : s.tasks.find t.id = some t
  status : t.status = .notStart
  progress : t.progress = "0%"
  taskID : t.taskID ≠ ""
  swept : ∀ u, .sweep u ∈ s.todo → u.id ≠ t.id
  mem : s.mem.find t.id = none
  fetches : ∀ u, some u ∈ s.fetches → u.id ≠ t.id
  refunds : s.returned t.id = []

variable {s : Loop} {t : Task}

theorem Inserted.pending (h : Inserted s t) : (s.view t.id).pending = 0 := by
  simp only [view, route, h.mem, Option.map_none]
  exact touches_none t.id h.swept

theorem Inserted.alone (h : Inserted s t) : Alone s.mem t.id := by
  intro m hm hid
  have := Table.find_of_mem hm
  rw [hid, h.mem] at this
  cases this

theorem Inserted.tracked (h : Inserted s t) (hq : 0 < t.quota)
    (hr : legacyTaskCutoff ≤ t.submitTime) : Tracked True t.quota t.id s where
  row := by
    refine ⟨t, h.row, rfl, fun _ => hq.ne', fun _ => ?_, fun _ => h.taskID⟩
    simp only [isLegacy, Bool.and_eq_false_iff, decide_eq_false_iff_not, not_lt]
    exact .inr hr
  sweeps u hu hid := absurd hid (h.swept u hu)
  alone := h.alone
  named m hm := by simp [h.mem] at hm
  mem m hm := by simp [h.mem] at hm
  fetches u hu hid := absurd hid (h.fetches u hu)

/-- A charged task that has failed got its charge back exactly once, any other at most once, where
all writes go through and each step is `regular`, `careful` and `fetchKeeps`. -/
theorem failed_task_refunded_once (cfg : PollConfig) (s : Loop) (t : Task) (es : List LoopEvent)
    (hi : Inserted s t) (hq : 0 < t.quota) (hr : legacyTaskCutoff ≤ t.submitTime)
    (hok : ∀ e ∈ es, e.succeeds = true)
    (hs : Along (step cfg) (fun s e => s.regular cfg t.id e = true ∧ s.careful t.id e = true ∧
      s.fetchKeeps t.id e = true) s es) :
    ((run (step cfg) s es).returned t.id = [] ∨
      (run (step cfg) s es).returned t.id = [t.quota]) ∧
    ∀ row, (run (step cfg) s es).tasks.find t.id = some row → row.status = .failure →
      (run (step cfg) s es).returned t.id = [t.quota] := by
  have hR : Refunded True t.quota (s.view t.id) := by
    refine ⟨hi.pending.trans_le (Nat.zero_le 1), .inl hi.refunds, fun _ r hrow hf => ?_⟩
    have hrow : s.tasks.find t.id = some r := hrow
    rw [hi.row] at hrow
    cases hrow
    exact absurd (hi.status.symm.trans hf) (by decide)
  have hrun := refunded_run cfg es (hi.tracked hq hr) hR <|
    along_iff.2 fun pre e post hes => by
      obtain ⟨h1, h2, h3⟩ := along_iff.1 hs pre e post hes
      exact ⟨h1, h3, fun _ => ⟨h2, hok e (by simp [hes])⟩⟩
  exact ⟨hrun.once.imp_right And.left, hrun.failed trivial⟩

def insertedTask : Task := { Race.videoTask with status := .notStart, progress := "0%" }

/-- A round that finds one task and asks its channel, with a fetch of the task in between. -/
def roundWith (answer : ChannelAnswer) (poll : List LoopEvent) : List LoopEvent :=
  [.wake 1800000010 false, .fetchRead 1, .query false, .platform 0 false,
    .channel 0 answer false] ++ poll ++ [.channel 0 .noAnswer false, .platform 0 false]

theorem inserted_init : Inserted (init ⟨[insertedTask], by decide⟩) insertedTask where
  row := by decide
  status := rfl
  progress := rfl
  taskID := by decide
  swept := by simp [init]
  mem := by decide
  fetches := by simp [init]
  refunds := by decide

def failedPoll : List LoopEvent :=
  roundWith (.answer []) [.fetchWrite 0 ⟨"", .inProgress, "", "", "0%", 0⟩ false,
    .video 1800000011 (some ⟨none, .ok (failTaskInfo "blocked"), none, []⟩) none false false] ++
  roundWith (.answer [])
    [.video 1800000026 (some ⟨none, .ok (failTaskInfo "blocked"), none, []⟩) none false false]

theorem failed_poll_refunded_once :
    (run (step Race.pollConfig) (init ⟨[insertedTask], by decide⟩) failedPoll).tasks.rows.map
      Task.status = [.failure] ∧
    ((run (step Race.pollConfig) (init ⟨[insertedTask], by decide⟩) failedPoll).returned 1 = [] ∨
      (run (step Race.pollConfig) (init ⟨[insertedTask], by decide⟩) failedPoll).returned 1 =
        [100]) :=
  ⟨by decide,
    (failed_task_refunded_once Race.pollConfig _ insertedTask failedPoll inserted_init (by decide)
      (by decide) (by decide) (by decide)).1⟩

/-- The task's channel is gone. -/
theorem failed_task_not_refunded :
    let s := run (step Race.pollConfig) (init ⟨[insertedTask], by decide⟩) (roundWith .notFound [])
    s.tasks.rows.map Task.status = [.failure] ∧ s.returned 1 = [] := by
  decide

theorem tracked_init {tasks : TaskTable} (ht : t ∈ tasks.rows) :
    Tracked False t.quota t.id (init tasks) where
  row := ⟨t, Table.find_of_mem ht, rfl, False.elim, False.elim, False.elim⟩
  sweeps := by simp [init]
  alone := alone_none _
  named := by simp [init, TaskTable.none, Table.find]
  mem := by simp [init, TaskTable.none, Table.find]
  fetches := by simp [init]

theorem fetchKeeps_of_isPoll {id : ℕ} {e : LoopEvent} (h : e.isPoll = true) :
    s.fetchKeeps id e = true := by
  cases e with
  | fetchWrite => cases h
  | _ => rfl

/-- What the loop returns for a task over a run is at most its quota, if every round finds the
upstream ids distinct, no answer names it too often, and the save after its refund goes through. -/
theorem refunds_le_quota (cfg : PollConfig) (tasks : TaskTable) (t : Task) (ht : t ∈ tasks.rows)
    (es : List LoopEvent) (hp : ∀ e ∈ es, e.isPoll = true)
    (hs : Along (step cfg) (fun s e => s.regular cfg t.id e = true) (init tasks) es) :
    ((run (step cfg) (init tasks) es).returned t.id).sum ≤ max t.quota 0 := by
  have hR : Refunded False t.quota ((init tasks).view t.id) :=
    ⟨Nat.zero_le 1, .inl rfl, False.elim⟩
  have hrun := refunded_run cfg es (tracked_init ht) hR <|
    along_iff.2 fun pre e post hes => by
      have he := hp e (by simp [hes])
      exact ⟨along_iff.1 hs pre e post hes, fetchKeeps_of_isPoll he, False.elim⟩
  rcases hrun.once with h | ⟨h, -⟩
  · rw [show (run (step cfg) (init tasks) es).returned t.id = [] from h]
    exact le_max_right _ _
  · rw [show (run (step cfg) (init tasks) es).returned t.id = [t.quota] from h, List.sum_singleton]
    exact le_max_left _ _

def sunoTask : Task := { insertedTask with platform := "suno" }

/-- A round in which Suno reports the task failed, and the save after the refund goes through or
not. -/
def failedSunoRound (dbErr : Bool) : List LoopEvent :=
  [.wake 1800000010 false, .query false, .platform 0 false,
    .channel 0 (.answer [⟨"up_1", .failure, "blocked", 0, 0, 0, []⟩]) false, .suno dbErr false,
    .channel 0 .noAnswer false, .platform 0 false]

theorem saved_suno_refunds_le_quota : ((run (step Race.pollConfig) (init ⟨[sunoTask], by decide⟩)
      (failedSunoRound false ++ failedSunoRound false)).returned 1).sum ≤ 100 :=
  refunds_le_quota Race.pollConfig ⟨[sunoTask], by decide⟩ sunoTask (List.mem_singleton_self _)
    (failedSunoRound false ++ failedSunoRound false) (by decide) (by decide)

theorem unsaved_suno_refunded_twice : (run (step Race.pollConfig) (init ⟨[sunoTask], by decide⟩)
      (failedSunoRound true ++ failedSunoRound false)).returned 1 = [100, 100] := by
  decide

end Loop

end AggreApi
