import AggreApi.Proofs.TaskRound

/-!
# Progress and status agree

Both selections of the loop leave out rows at `100%`. The polls write `100%` together with a final
status except where the provider says otherwise (`Loop.sensible`).
-/

namespace AggreApi

open List TaskTable

variable {now : ℤ} {t : Task} {tb : TaskTable}

def Task.agrees (t : Task) : Prop := t.progress = "100%" → t.status.isDone = true

/-- A status the video poll takes for unfinished. -/
def TaskStatus.isRunning (s : TaskStatus) : Bool := s = .submitted || s = .queued || s = .inProgress

namespace Loop

/-- The answer to a video poll does not put a running task at `100%`, and a Suno item that fails a
task, or finds it at `100%`, leaves it in a final status. -/
def sensible (s : Loop) : LoopEvent → Bool
  | .video _ (some resp) _ _ _ =>
    (parseVideoResponse resp).all fun ti => ti.status.isRunning = true → ti.progress ≠ "100%"
  | .suno _ _ =>
    match s.todo with
    | .suno item :: _ =>
      (s.mem.taskM taskPlatformSuno item.taskID).all fun t =>
        item.status.isDone = true ∨ (item.status = .empty ∧ t.status.isDone = true) ∨
          (item.failReason = "" ∧ t.progress ≠ "100%")
    | _ => true
  | _ => true

variable {cfg : PollConfig} {s : Loop}

variable {ti : TaskInfo} {t' : Task} {d : VideoDecision}

theorem agrees_applyTaskResult
    (h : ti.status.isRunning = true → ti.progress ≠ "100%")
    (hv : applyTaskResult cfg now t ti = (t', some d)) : t'.agrees := by
  have hrun : ∀ p : String, p ≠ "100%" → ti.status.isRunning = true →
      orProgress ti p ≠ "100%" := by
    intro p hp hr
    unfold orProgress
    split_ifs
    · exact h hr
    · exact hp
  unfold applyTaskResult at hv
  split at hv <;> simp only [Prod.mk.injEq, Option.some.injEq, reduceCtorEq, and_false] at hv <;>
    obtain ⟨rfl, -⟩ := hv <;> rename_i hs
  · exact fun hp => absurd hp (hrun "10%" (by decide) (by simp [hs, TaskStatus.isRunning]))
  · exact fun hp => absurd hp (hrun "20%" (by decide) (by simp [hs, TaskStatus.isRunning]))
  · exact fun hp => absurd hp (hrun "30%" (by decide) (by simp [hs, TaskStatus.isRunning]))
  · exact fun _ => rfl
  · exact fun _ => rfl

variable {resp : Response}

theorem resolveEmptyStatus_cases {ti' : TaskInfo}
    (h : resolveEmptyStatus resp ti = some ti') :
    ti' = ti ∨ ∃ reason, ti' = failTaskInfo reason := by
  unfold resolveEmptyStatus at h
  split_ifs at h
  · exact .inl (Option.some.inj h).symm
  · split at h
    · exact .inl (Option.some.inj h).symm
    · exact .inr ⟨_, (Option.some.inj h).symm⟩
    · split_ifs at h
      exact .inr ⟨_, (Option.some.inj h).symm⟩

theorem agrees_videoAnswer
    (h : ∀ ti, parseVideoResponse resp = some ti → ti.status.isRunning = true →
      ti.progress ≠ "100%")
    (hv : videoAnswer cfg now t resp = (t', some d)) : t'.agrees := by
  obtain ⟨ti, ti', hti, hti', hv⟩ := applied_of_videoAnswer hv
  refine agrees_applyTaskResult ?_ hv
  rcases resolveEmptyStatus_cases hti' with rfl | ⟨reason, rfl⟩
  · exact h ti' hti
  · exact fun hr => absurd hr Bool.false_ne_true

variable {item : SunoDataResponse}

theorem agrees_applySunoItem
    (h : item.status.isDone = true ∨ (item.status = .empty ∧ t.status.isDone = true) ∨
      (item.failReason = "" ∧ t.progress ≠ "100%")) : (applySunoItem t item).agrees := by
  intro hp
  show (sunoStatus t item).isDone = true
  unfold sunoStatus
  rcases h with h | ⟨h1, h2⟩ | ⟨h1, h2⟩
  · rwa [if_pos]
    intro he
    rw [he] at h
    cases h
  · rwa [if_neg (by simp [h1])]
  · by_contra hd
    refine h2 ?_
    have hnf : ¬(sunoFails t item = true) := by
      simp only [sunoFails, h1, ne_eq, not_true, decide_false, Bool.false_or, decide_eq_true_eq]
      intro hf
      unfold sunoStatus at hf
      exact hd (by rw [hf]; rfl)
    have hns : item.status ≠ .success := by
      intro hs
      exact hd (by rw [hs]; rfl)
    simpa [applySunoItem, hnf, hns] using hp

def Agrees (tb : TaskTable) : Prop := ∀ t ∈ tb.rows, t.agrees

theorem agrees_put (h : Agrees tb) (ht : t.agrees) : Agrees (tb.put t) := by
  intro r hr
  rcases Table.mem_put hr with hr | ⟨rfl, -⟩
  · exact h r hr
  · exact ht

theorem agrees_updateWithStatus (h : Agrees tb) (ht : t.agrees)
    (dbErr : Bool) (st : TaskStatus) : Agrees (tb.updateWithStatus dbErr t st).1 := by
  rcases tb.updateWithStatus_cases dbErr t st with ⟨h1, -⟩ | ⟨-, h1, -⟩
  · rwa [h1]
  · rw [h1]
    exact agrees_put h ht

theorem agrees_taskBulkUpdateByID (h : Agrees tb) (dbErr : Bool)
    (ids : List ℕ) (reason : Option String) :
    Agrees (tb.taskBulkUpdateByID dbErr ids reason) := by
  intro r hr
  unfold taskBulkUpdateByID at hr
  split_ifs at hr
  · exact h r hr
  · simp only [Table.map, mem_map] at hr
    obtain ⟨t, ht, rfl⟩ := hr
    split_ifs
    · exact fun _ => rfl
    · exact h t ht

theorem sweep_tasks (cfg : PollConfig) (s : Loop) (t : Task) (now : ℤ) (dbErr fe : Bool) :
    (s.sweep cfg t now dbErr fe).tasks =
      (s.tasks.updateWithStatus dbErr (sweepTask cfg now t) t.status).1 := by
  unfold sweep
  rcases s.tasks.updateWithStatus dbErr (sweepTask cfg now t) t.status with ⟨tb, _ | _ | _⟩
  · rfl
  · rfl
  · simp only
    split_ifs <;> simp

variable {dbErr fe : Bool}

theorem agrees_video (h : Agrees s.tasks) {p u : String} {resp : Option Response}
    {q : Option ℤ}
    (hs : ∀ r ti, resp = some r → parseVideoResponse r = some ti → ti.status.isRunning = true →
      ti.progress ≠ "100%") :
    Agrees (s.video cfg p u now resp q dbErr fe).tasks := by
  unfold video
  split
  · rename_i t resp hm
    rcases hv : videoAnswer cfg now t resp with ⟨t', _ | d⟩
    · exact h
    · have ht' : t'.agrees := agrees_videoAnswer (fun ti hti => hs resp ti rfl hti) hv
      have hw := agrees_updateWithStatus h ht' dbErr t.status
      simp only []
      split
      · split_ifs
        · rw [bill_tasks]
          exact hw
        · exact hw
      · rw [bill_tasks]
        exact hw
      · rw [bill_tasks]
        exact h
  · exact h

theorem agrees_suno (h : Agrees s.tasks)
    (hs : ∀ t, s.mem.taskM taskPlatformSuno item.taskID = some t →
      item.status.isDone = true ∨ (item.status = .empty ∧ t.status.isDone = true) ∨
        (item.failReason = "" ∧ t.progress ≠ "100%")) :
    Agrees (s.suno cfg item dbErr fe).tasks := by
  unfold suno
  rcases hm : s.mem.taskM taskPlatformSuno item.taskID with _ | t
  · exact h
  · have ht := agrees_applySunoItem (hs t hm)
    have hupd : Agrees (s.tasks.update dbErr (applySunoItem t item)).1 := by
      unfold update
      split_ifs
      · exact h
      · exact agrees_put h ht
    simp only []
    split_ifs
    · simpa using hupd
    · exact hupd
    · exact h

theorem agrees_step (h : Agrees s.tasks) {e : LoopEvent} (hp : e.isPoll = true)
    (hs : s.sensible e = true) : Agrees (step cfg s e).tasks := by
  cases e with
  | wake now dbErr | query dbErr =>
    simp only [step]
    split_ifs <;> exact h
  | sweep now dbErr =>
    simp only [step]
    split
    · rename_i t todo ht
      rw [sweep_tasks]
      exact agrees_updateWithStatus h (t := sweepTask cfg now t) (fun _ => rfl) dbErr t.status
    · exact h
  | platform =>
    simp only [step]
    split
    · split
      · exact agrees_taskBulkUpdateByID h _ _ _
      · split_ifs <;> exact h
    · exact h
  | channel _ answer =>
    simp only [step]
    split
    · split
      · cases answer with
        | notFound => exact agrees_taskBulkUpdateByID h _ _ _
        | _ => exact h
      · split_ifs <;> exact h
    · exact h
  | video =>
    simp only [step]
    split
    · rename_i p u todo ht
      refine agrees_video (s := { s with todo := todo }) h fun r ti hr hti => ?_
      simpa only [sensible, hr, hti, Option.all_some, decide_eq_true_eq] using hs
    · exact h
  | suno =>
    simp only [step]
    split
    · rename_i item todo ht
      refine agrees_suno (s := { s with todo := todo }) h fun t hm => ?_
      have hm : s.mem.taskM taskPlatformSuno item.taskID = some t := hm
      simpa only [sensible, ht, hm, Option.all_some, decide_eq_true_eq] using hs
    · exact h
  | fetchRead i | fetchWrite k ti dbErr => simp [LoopEvent.isPoll] at hp

theorem unfinished_of_agrees (h : t.agrees) (hd : t.status.isDone = false) :
    unfinished t = true := by
  simp only [unfinished, hd, Bool.not_false, Bool.and_true, decide_eq_true_eq]
  exact fun hp => absurd (hd.symm.trans (h hp)) (by decide)

variable {limit : ℕ}

theorem mem_getAllUnFinishSyncTasks_of_le (ht : t ∈ tb.rows)
    (hu : unfinished t = true)
    (hl : tb.rows.countP unfinished ≤ limit) : t ∈ tb.getAllUnFinishSyncTasks limit := by
  unfold getAllUnFinishSyncTasks
  rw [take_of_length_le (by rwa [length_insertionSort, ← countP_eq_length_filter]),
    mem_insertionSort, mem_filter]
  exact ⟨ht, hu⟩

variable {cutoff : ℤ}

section
variable (ht : t ∈ tb.rows) (hu : unfinished t = true) (hc : t.submitTime < cutoff)
include ht hu hc

theorem mem_getTimedOutUnfinishedTasks_of_le (hl : tb.rows.countP unfinished ≤ limit) :
    t ∈ tb.getTimedOutUnfinishedTasks cutoff limit := by
  unfold getTimedOutUnfinishedTasks
  rw [take_of_length_le, mem_insertionSort, mem_filter]
  · exact ⟨ht, by simp [hu, hc]⟩
  · rw [length_insertionSort, ← countP_eq_length_filter]
    refine (countP_mono_left fun r _ hr => ?_).trans hl
    simp only [Bool.and_eq_true] at hr
    exact hr.1

theorem getTimedOut_mem_or_full (limit : ℕ) :
    t ∈ tb.getTimedOutUnfinishedTasks cutoff limit ∨
      (tb.getTimedOutUnfinishedTasks cutoff limit).length = limit ∧
        ∀ r ∈ tb.getTimedOutUnfinishedTasks cutoff limit, r.submitTime ≤ t.submitTime := by
  unfold getTimedOutUnfinishedTasks
  set l := (tb.rows.filter fun r => unfinished r && r.submitTime < cutoff).insertionSort
    fun a b => a.submitTime ≤ b.submitTime with hldef
  have hsorted : l.Pairwise fun a b => a.submitTime ≤ b.submitTime :=
    pairwise_insertionSort _ _
  have hmem : t ∈ l.take limit ++ l.drop limit := by
    rw [take_append_drop, hldef, mem_insertionSort, mem_filter]
    exact ⟨ht, by simp [hu, hc]⟩
  rw [← take_append_drop limit l, pairwise_append] at hsorted
  rcases mem_append.1 hmem with h | h
  · exact .inl h
  · refine .inr ⟨?_, fun r hr => hsorted.2.2 r hr t h⟩
    have := length_pos_of_mem h
    rw [length_drop] at this
    rw [length_take]
    omega

end

def swept (cfg : PollConfig) (now : ℤ) (l : List Task) (r : Task) : Task :=
  if r ∈ l then sweepTask cfg now r else r

theorem rows_sweep (cfg : PollConfig) (now : ℤ) : ∀ (l : List Task) (tb : TaskTable),
    (l.map Task.id).Nodup → (∀ t ∈ l, tb.find t.id = some t) →
    (l.foldl (fun tb t => (tb.updateWithStatus false (sweepTask cfg now t) t.status).1)
      tb).rows = tb.rows.map (swept cfg now l)
  | [], tb, _, _ => by
    have : swept cfg now [] = id := funext fun r => if_neg not_mem_nil
    rw [this, map_id]
    rfl
  | t :: l, tb, hn, hl => by
    rw [map_cons, nodup_cons] at hn
    have ht : tb.find t.id = some t := hl t mem_cons_self
    have hwon : tb.updateWithStatus false (sweepTask cfg now t) t.status =
        (tb.put (sweepTask cfg now t), some true) := updateWithStatus_won ht
    have hne : ∀ u ∈ l, u.id ≠ t.id := fun u hu h => hn.1 (h ▸ mem_map_of_mem hu)
    rw [foldl_cons, hwon, rows_sweep cfg now l _ hn.2 fun u hu => ?_]
    · rw [Table.put, Table.map, map_map]
      refine map_congr_left fun r hr => ?_
      rw [Function.comp_apply, show (sweepTask cfg now t).id = t.id from rfl]
      by_cases hid : r.id = t.id
      · obtain rfl : r = t := Table.eq_of_key hr (Table.mem_of_find ht) hid
        rw [if_pos rfl, swept, swept, if_pos mem_cons_self, if_neg]
        exact fun h => hne _ h rfl
      · rw [if_neg hid, swept, swept]
        refine if_congr ?_ rfl rfl
        rw [mem_cons, or_iff_right fun h => hid (by rw [h])]
    · rw [Table.find_put_of_ne (a := sweepTask cfg now t) _ (hne u hu)]
      exact hl u (mem_cons_of_mem _ hu)

/-- The unfinished tasks that have waited at least as long as one submitted at `time`. -/
def ahead (time : ℤ) (r : Task) : Bool := unfinished r && r.submitTime ≤ time

theorem unfinished_sweepTask (cfg : PollConfig) (now : ℤ) (t : Task) :
    unfinished (sweepTask cfg now t) = false :=
  unfinished_of_isDone rfl

theorem countP_ahead_sweep (cfg : PollConfig) (now time : ℤ) {l rows : List Task}
    (hn : l.Nodup) (hr : rows.Nodup) (hl : ∀ t ∈ l, t ∈ rows ∧ ahead time t = true) :
    (rows.map (swept cfg now l)).countP (ahead time) + l.length = rows.countP (ahead time) := by
  have h1 : (rows.map (swept cfg now l)).countP (ahead time) =
      ((rows.filter (ahead time)).filter fun r => !decide (r ∈ l)).length := by
    rw [countP_map, countP_eq_length_filter, filter_filter]
    congr 1
    refine filter_congr fun r _ => ?_
    by_cases h : r ∈ l <;> simp [swept, h, ahead, unfinished_sweepTask]
  have h2 : ((rows.filter (ahead time)).filter fun r => decide (r ∈ l)).length = l.length := by
    refine List.Perm.length_eq ((perm_ext_iff_of_nodup ?_ hn).2 fun r => ?_)
    · exact (hr.filter _).filter _
    · simp only [mem_filter, decide_eq_true_eq]
      exact ⟨And.right, fun h => ⟨hl r h, h⟩⟩
  rw [h1, ← h2, countP_eq_length_filter (p := ahead time),
    (rows.filter (ahead time)).length_eq_length_filter_add fun r => decide (r ∈ l), add_comm]

theorem nodup_getTimedOutUnfinishedTasks (tb : TaskTable) (cutoff : ℤ) (limit : ℕ) :
    ((tb.getTimedOutUnfinishedTasks cutoff limit).map Task.id).Nodup := by
  refine List.Nodup.sublist ((take_sublist _ _).map _) ?_
  refine ((perm_insertionSort _ _).map _).nodup_iff.2 ?_
  exact tb.nodup.sublist (filter_sublist.map _)

theorem rows_sweepTimedOutTasks (hm : 0 < cfg.taskTimeoutMinutes) (tb : TaskTable) (now : ℤ) :
    (sweepTimedOutTasks cfg tb now).rows = tb.rows.map (swept cfg now
      (tb.getTimedOutUnfinishedTasks (now - cfg.taskTimeoutMinutes * 60) 100)) := by
  rw [sweepTimedOutTasks, if_neg (not_le.2 hm)]
  refine rows_sweep cfg now _ tb (nodup_getTimedOutUnfinishedTasks tb _ _) fun t ht => ?_
  exact Table.find_of_mem (mem_getTimedOutUnfinishedTasks ht).1

theorem sweep_of_not_mem (hm : 0 < cfg.taskTimeoutMinutes) (ht : t ∈ tb.rows)
    (hn : t ∉ tb.getTimedOutUnfinishedTasks (now - cfg.taskTimeoutMinutes * 60) 100) :
    t ∈ (sweepTimedOutTasks cfg tb now).rows := by
  rw [rows_sweepTimedOutTasks hm, mem_map]
  exact ⟨t, ht, if_neg hn⟩

theorem sweeps_of_isDone (hm : 0 < cfg.taskTimeoutMinutes)
    (hd : t.status.isDone = true) : ∀ (nows : List ℤ) (tb : TaskTable), t ∈ tb.rows →
    t ∈ (nows.foldl (sweepTimedOutTasks cfg) tb).rows
  | [], _, ht => ht
  | now :: nows, tb, ht => by
    refine sweeps_of_isDone hm hd nows _ (sweep_of_not_mem hm ht fun h => ?_)
    have := not_isDone_of_unfinished (mem_getTimedOutUnfinishedTasks h).2.1
    exact absurd (this.symm.trans hd) (by decide)

theorem eventually_swept (hm : 0 < cfg.taskTimeoutMinutes)
    (hu : unfinished t = true) : ∀ (nows : List ℤ) (tb : TaskTable), t ∈ tb.rows →
    (∀ now ∈ nows, t.submitTime < now - cfg.taskTimeoutMinutes * 60) →
    tb.rows.countP (ahead t.submitTime) ≤ 100 * nows.length →
    ∃ r ∈ (nows.foldl (sweepTimedOutTasks cfg) tb).rows, r.id = t.id ∧ r.status = .failure
  | [], tb, ht, _, hc => by
    have hpos : 0 < tb.rows.countP (ahead t.submitTime) :=
      countP_pos_iff.2 ⟨t, ht, by simp [ahead, hu]⟩
    simp only [length_nil, mul_zero] at hc
    omega
  | now :: nows, tb, ht, ho, hc => by
    rw [foldl_cons]
    have hout := ho now mem_cons_self
    by_cases hin : t ∈ tb.getTimedOutUnfinishedTasks (now - cfg.taskTimeoutMinutes * 60) 100
    · refine ⟨sweepTask cfg now t, sweeps_of_isDone hm rfl nows _ ?_, rfl, rfl⟩
      rw [rows_sweepTimedOutTasks hm, mem_map]
      exact ⟨t, ht, if_pos hin⟩
    · obtain ⟨hlen, hle⟩ := (getTimedOut_mem_or_full ht hu hout 100).resolve_left hin
      refine eventually_swept hm hu nows _ (sweep_of_not_mem hm ht hin)
        (fun n hn => ho n (mem_cons_of_mem _ hn)) ?_
      have hahead : ∀ r ∈ tb.getTimedOutUnfinishedTasks (now - cfg.taskTimeoutMinutes * 60) 100,
          r ∈ tb.rows ∧ ahead t.submitTime r = true := fun r hr => by
        obtain ⟨h1, h2, -⟩ := mem_getTimedOutUnfinishedTasks hr
        exact ⟨h1, by simp [ahead, h2, hle r hr]⟩
      have hcount := countP_ahead_sweep cfg now t.submitTime
        (nodup_getTimedOutUnfinishedTasks tb _ 100).of_map tb.nodup.of_map hahead
      rw [rows_sweepTimedOutTasks hm]
      rw [hlen] at hcount
      rw [length_cons] at hc
      omega

/-- In every run whose answers are sensible, a row at `100%` is in a final status; so one that is
not is in both selections, and enough sweeps after its timeout fail it. -/
theorem polls_keep_progress (cfg : PollConfig) (tasks : TaskTable) (es : List LoopEvent)
    (h0 : ∀ t ∈ tasks.rows, t.agrees) (hp : ∀ e ∈ es, e.isPoll = true)
    (hs : Along (step cfg) (fun s e => s.sensible e = true) (init tasks) es) :
    let tb := (run (step cfg) (init tasks) es).tasks
    (∀ t ∈ tb.rows, t.progress = "100%" → t.status.isDone = true) ∧
    ∀ t ∈ tb.rows, t.status.isDone = false →
      (∀ limit, tb.rows.countP TaskTable.unfinished ≤ limit →
        t ∈ tb.getAllUnFinishSyncTasks limit ∧
        ∀ cutoff, t.submitTime < cutoff → t ∈ tb.getTimedOutUnfinishedTasks cutoff limit) ∧
      (0 < cfg.taskTimeoutMinutes → ∀ nows : List ℤ,
        (∀ now ∈ nows, t.submitTime < now - cfg.taskTimeoutMinutes * 60) →
        tb.rows.countP (ahead t.submitTime) ≤ 100 * nows.length →
        ∃ r ∈ (nows.foldl (sweepTimedOutTasks cfg) tb).rows,
          r.id = t.id ∧ r.status = .failure) := by
  have hA : Agrees (run (step cfg) (init tasks) es).tasks := by
    have hboth : Along (step cfg) (fun s e => e.isPoll = true ∧ s.sensible e = true)
        (init tasks) es := along_iff.2 fun pre e post hes =>
      ⟨hp e (by simp [hes]), along_iff.1 hs pre e post hes⟩
    exact Along.run_inv (I := fun s : Loop => Agrees s.tasks)
      (fun s e h he => agrees_step h he.1 he.2) h0 hboth
  refine ⟨hA, fun t ht hd => ?_⟩
  have hu := unfinished_of_agrees (hA t ht) hd
  refine ⟨fun limit hl => ⟨mem_getAllUnFinishSyncTasks_of_le ht hu hl, fun cutoff hc => ?_⟩,
    fun hm nows ho hc => eventually_swept hm hu nows _ ht ho hc⟩
  exact mem_getTimedOutUnfinishedTasks_of_le ht hu hc hl

def runningTask (progress : String) : Task :=
  { Race.videoTask with status := .inProgress, progress := progress }

/-- A round in which another instance reports the task running at `progress`. -/
def runningRound (progress : String) : List LoopEvent :=
  [.wake 1800000010 false, .query false, .platform 0 false, .channel 0 (.answer []) false,
    .video 1800000011 (some ⟨some ⟨"success", runningTask progress⟩, .error "", none, []⟩) none
      false false,
    .channel 0 .noAnswer false, .platform 0 false]

theorem running_round_keeps_progress :
    (run (step Race.pollConfig) (init Race.videoTable) (runningRound "50%")).tasks.rows.map
      Task.progress = ["50%"] ∧
    ∀ t ∈ (run (step Race.pollConfig) (init Race.videoTable) (runningRound "50%")).tasks.rows,
      t.progress = "100%" → t.status.isDone = true :=
  ⟨by decide,
    (polls_keep_progress Race.pollConfig Race.videoTable (runningRound "50%")
      (by rintro t ht; rw [mem_singleton.1 ht]; intro h; exact absurd h (by decide))
      (by decide) (by decide)).1⟩

/-- Reported running at `100%`, the task is in neither selection any more. -/
theorem running_task_lost :
    let tb := (run (step Race.pollConfig) (init Race.videoTable) (runningRound "100%")).tasks
    tb.rows.map Task.status = [.inProgress] ∧ tb.rows.map Task.progress = ["100%"] ∧
      tb.getAllUnFinishSyncTasks 1000 = [] ∧ tb.getTimedOutUnfinishedTasks 1900000000 100 = [] := by
  decide

end Loop

end AggreApi
