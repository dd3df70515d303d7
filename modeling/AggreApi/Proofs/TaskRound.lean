import AggreApi.Proofs.TaskLoop

/-!
# A round of the polling loop

Every step of the loop is a `TaskStep` of each task, provided the providers answer about the tasks
they were asked about, once, and a refund is followed by a save that goes through.
-/

namespace AggreApi

open List

variable {todo : List Act} {k : ℕ} {t : Task} {p : String}

namespace Loop

/-- Upstream ids are distinct in the platform, a Suno answer names the task no more often than
asked, and the save after a refund goes through. -/
def regular (cfg : PollConfig) (id : ℕ) (s : Loop) : LoopEvent → Bool
  | .query _ =>
    (s.tasks.getAllUnFinishSyncTasks cfg.taskQueryLimit).all fun m =>
      (s.tasks.getAllUnFinishSyncTasks cfg.taskQueryLimit).all fun t =>
        m.id = id → t.getUpstreamTaskID ≠ "" → t.platform = m.platform →
          t.getUpstreamTaskID = m.getUpstreamTaskID → t.id = id
  | .channel k (.answer items) _ =>
    match s.todo, s.mem.find id with
    | .channels p cs :: _, some m =>
      cs[k]?.all fun c =>
        items.countP (·.taskID = m.getUpstreamTaskID) ≤
          (s.mem.taskIds p c).count m.getUpstreamTaskID
    | _, _ => true
  | .suno dbErr _ =>
    match s.todo with
    | .suno item :: _ =>
      (s.mem.taskM taskPlatformSuno item.taskID).all fun t =>
        t.id = id → taskNeedsUpdate cfg t item = true → sunoFails t item = true → dbErr = false
    | _ => true
  | _ => true

/-- The task's channel is found, and a Suno item does not put its submission before the legacy
cutoff. -/
def careful (id : ℕ) (s : Loop) : LoopEvent → Bool
  | .channel k .notFound _ =>
    match s.todo, s.mem.find id with
    | .channels p cs :: _, some m => cs[k]?.all fun c => ¬(m.platform = p ∧ m.channelId = c)
    | _, _ => true
  | .suno _ _ =>
    match s.todo with
    | .suno item :: _ => keepsRecent item
    | _ => true
  | _ => true

/-- A fetch that finds the task in the status it read finds it still polled and does not fail it, or
leaves status and progress. -/
def fetchKeeps (id : ℕ) (s : Loop) : LoopEvent → Bool
  | .fetchWrite k ti _ =>
    match s.fetches[k]?, s.tasks.find id with
    | some (some t), some r =>
      t.id = id → r.status = t.status →
        (TaskTable.unfinished r = true ∧ ti.status ≠ .failure) ∨
          ((ti.status = .empty ∨ ti.status = r.status) ∧ orProgress ti t.progress = r.progress)
    | _, _ => true
  | _ => true

end Loop

def LoopEvent.succeeds : LoopEvent → Bool
  | .sweep _ dbErr fundingErr => !dbErr && !fundingErr
  | .platform _ dbErr => !dbErr
  | .channel _ _ dbErr => !dbErr
  | .video _ _ _ dbErr fundingErr => !dbErr && !fundingErr
  | .suno dbErr fundingErr => !dbErr && !fundingErr
  | .fetchWrite _ _ dbErr => !dbErr
  | _ => true

def LoopEvent.isPoll : LoopEvent → Bool
  | .fetchRead _ => false
  | .fetchWrite _ _ _ => false
  | _ => true

theorem touches_map_sweep (id : ℕ) (m : Option Route) : ∀ l : List Task,
    touches id m (l.map .sweep) = l.countP (·.id = id)
  | [] => rfl
  | t :: l => by
    rw [map_cons, touches_cons, touches_map_sweep id m l, countP_cons, add_comm]
    simp [Act.touches]

theorem touches_map_video (id : ℕ) (m : Route) (p : String) : ∀ l : List String,
    touches id (some m) (l.map (.video p)) = if m.platform = p then l.count m.upstreamID else 0
  | [] => by simp
  | u :: l => by
    rw [map_cons, touches_cons, touches_map_video id m p l, count_cons]
    by_cases hp : m.platform = p
    · rcases eq_or_ne m.upstreamID u with hu | hu
      · simp [Act.touches, hp, hu, add_comm]
      · simp [Act.touches, hp, hu, hu.symm]
    · simp [Act.touches, hp]

theorem touches_map_suno (id : ℕ) (m : Route) : ∀ l : List SunoDataResponse,
    touches id (some m) (l.map .suno) =
      if m.platform = taskPlatformSuno then l.countP (·.taskID = m.upstreamID) else 0
  | [] => by simp
  | item :: l => by
    rw [map_cons, touches_cons, touches_map_suno id m l, countP_cons]
    by_cases hp : m.platform = taskPlatformSuno
    · rcases eq_or_ne m.upstreamID item.taskID with hu | hu
      · simp [Act.touches, hp, hu, add_comm]
      · simp [Act.touches, hp, hu, hu.symm]
    · simp [Act.touches, hp]

theorem touches_none (id : ℕ) (h : ∀ t, .sweep t ∈ todo → t.id ≠ id) :
    touches id none todo = 0 := by
  induction todo with
  | nil => rfl
  | cons a _ ih =>
    rw [touches_cons, ih fun t ht => h t (mem_cons_of_mem _ ht), add_zero]
    cases a with
    | sweep t => exact if_neg (h t mem_cons_self)
    | _ => rfl

theorem count_eraseIdx {α : Type*} [DecidableEq α] {l : List α} {a : α}
    (h : l[k]? = some a) (b : α) :
    (l.eraseIdx k).count b + (if a = b then 1 else 0) = l.count b := by
  obtain ⟨hk, rfl⟩ := List.getElem?_eq_some_iff.1 h
  rw [← (getElem_cons_eraseIdx_perm hk).count_eq b, count_cons]
  simp

namespace Loop

variable {lossless : Prop} {quota : ℤ} {cfg : PollConfig} {id : ℕ} {s s' : Loop}

theorem upstreamID_ne_of_named (h : t.taskID ≠ "") : t.getUpstreamTaskID ≠ "" := by
  unfold Task.getUpstreamTaskID
  split_ifs with hu
  · exact hu
  · exact h

theorem taskIds_count_le {mem : TaskTable} {m : Task} (ha : Alone mem id)
    (hm : mem.find id = some m) (c : ℕ) :
    (mem.taskIds m.platform c).count m.getUpstreamTaskID ≤ if m.channelId = c then 1 else 0 := by
  have hid : ∀ t ∈ (mem.ofPlatform m.platform).filter (·.channelId = c),
      (t.getUpstreamTaskID == m.getUpstreamTaskID) = true → t.id = id := by
    intro t ht hu
    simp only [TaskTable.ofPlatform, mem_filter, Bool.and_eq_true, decide_eq_true_eq] at ht
    exact ha m (Table.mem_of_find hm) (Table.key_of_find hm) t ht.1.1 ht.1.2.2 ht.1.2.1
      (by simpa using hu)
  rw [TaskTable.taskIds, List.count, countP_map]
  split_ifs with hc
  · refine Table.countP_le_one (mem.nodup.sublist ?_) hid
    exact (filter_sublist.trans filter_sublist).map _
  · rw [Nat.le_zero, countP_eq_zero]
    intro t ht hu
    have hmt : m = t := Table.eq_of_key (Table.mem_of_find hm)
      (mem_of_mem_filter (mem_of_mem_filter ht))
      ((Table.key_of_find hm).trans (hid t ht hu).symm)
    simp only [mem_filter, decide_eq_true_eq, ← hmt] at ht
    exact hc ht.2

theorem find_taskBulkUpdateByID (tb : TaskTable) (dbErr : Bool) (ids : List ℕ)
    (reason : Option String) (id : ℕ) :
    (tb.taskBulkUpdateByID dbErr ids reason).find id =
      if dbErr = false ∧ id ∈ ids then (tb.find id).map (TaskTable.failColumns reason)
      else tb.find id := by
  unfold TaskTable.taskBulkUpdateByID
  rcases dbErr
  · simp only [Bool.false_eq_true, if_false, Table.find_map, true_and]
    rcases hf : tb.find id with _ | r
    · simp
    · have hid : r.id = id := Table.key_of_find hf
      simp only [Option.map_some, hid]
      split_ifs <;> rfl
  · simp

section
variable (hT : Tracked lossless quota id s)
include hT

section
variable (hmem : s'.mem = s.mem) (hfetch : s'.fetches = s.fetches) (href : s'.refunds = s.refunds)
  (hsweep : ∀ t, .sweep t ∈ s'.todo → .sweep t ∈ s.todo)
  (hle : touches id (s.route id) s'.todo ≤ touches id (s.route id) s.todo)
include hmem hfetch href hsweep hle

theorem bulk_sim {dbErr : Bool} {ids : List ℕ} {reason : Option String}
    (htasks : s'.tasks = s.tasks.taskBulkUpdateByID dbErr ids reason)
    (hids : lossless → id ∉ ids) : Sim lossless quota id s s' := by
  obtain ⟨r, hr, hs⟩ := hT.row
  have hview : s'.view id = ⟨s'.tasks.find id, touches id (s.route id) s'.todo, s.returned id⟩ := by
    simp [view, route, returned, hmem, href]
  have hnext : ∀ r', s'.tasks.find id = some r' → Sound lossless quota r' →
      Tracked lossless quota id s' := fun r' h1 h2 =>
    hT.next (t := r) ⟨r', h1, h2⟩ hsweep (fun t ht => hfetch ▸ ht) (.inl hmem)
      (.inl (by rw [hmem])) (by rw [hview]; exact hle)
  have hfind := find_taskBulkUpdateByID s.tasks dbErr ids reason id
  rw [← htasks, hr] at hfind
  have hold : s.view id = ⟨some r, touches id (s.route id) s.todo, s.returned id⟩ := by
    simp [view, hr]
  split_ifs at hfind with h
  · refine ⟨?_, hnext _ hfind (hs.congr rfl rfl)⟩
    rw [hview, hfind, hold]
    exact .fail (fun hl => hids hl h.2) (unfinished_of_isDone rfl) hle
  · refine ⟨?_, hnext _ hfind hs⟩
    rw [hview, hfind, hold]
    exact .idle hle

theorem todo_sim (htasks : s'.tasks = s.tasks) : Sim lossless quota id s s' :=
  @bulk_sim _ _ _ _ _ hT hmem hfetch href hsweep hle true [] none htasks fun _ => not_mem_nil

end

theorem wake_sim (ht : s.todo = []) (now : ℤ) (dbErr : Bool) :
    Sim lossless quota id s (s.wake cfg now dbErr) := by
  obtain ⟨r, hr, hs⟩ := hT.row
  obtain ⟨swept, hswept, hmem, hnd⟩ : ∃ swept : List Task,
      (s.wake cfg now dbErr).todo = swept.map .sweep ++ [.query] ∧
      (∀ t ∈ swept, t ∈ s.tasks.rows ∧ TaskTable.unfinished t = true) ∧
      (swept.map Task.id).Nodup := by
    unfold wake
    split_ifs
    · exact ⟨[], rfl, by simp, by simp⟩
    · refine ⟨_, rfl, fun t ht => ?_, ?_⟩
      · obtain ⟨h1, h2, -⟩ := TaskTable.mem_getTimedOutUnfinishedTasks ht
        exact ⟨h1, h2⟩
      · refine List.Nodup.sublist ((take_sublist _ _).map _) ?_
        refine ((perm_insertionSort _ _).map _).nodup_iff.2 ?_
        exact s.tasks.nodup.sublist (filter_sublist.map _)
  have hrow : ∀ t ∈ swept, t.id = id → t = r := fun t ht hid => by
    have := Table.find_of_mem (hmem t ht).1
    rw [hid, hr, Option.some.injEq] at this
    exact this.symm
  have hview : (s.wake cfg now dbErr).view id =
      ⟨some r, swept.countP (·.id = id), s.returned id⟩ := by
    have h1 : (s.wake cfg now dbErr).route id = none := rfl
    simp only [view, hswept, h1, touches_append, touches_map_sweep]
    exact congrArg (TaskView.mk · _ _) hr
  have hold : s.view id = ⟨some r, 0, s.returned id⟩ := by
    simp [view, hr, ht, touches_nil]
  constructor
  · rw [hview, hold]
    by_cases h0 : ∃ t ∈ swept, t.id = id
    · obtain ⟨t, ht', hid⟩ := h0
      refine .select (hrow t ht' hid ▸ (hmem t ht').2) ?_
      exact Table.countP_le_one hnd fun t _ h => by simpa using h
    · refine .idle (Nat.le_zero.2 (countP_eq_zero.2 fun t ht' h => h0 ⟨t, ht', ?_⟩))
      simpa using h
  · refine ⟨⟨r, hr, hs⟩, fun t ht' hid => ?_, alone_none id, ?_, ?_, hT.fetches⟩
    · rw [hswept] at ht'
      simp only [mem_append, mem_map, Act.sweep.injEq, exists_eq_right,
        mem_singleton, reduceCtorEq, or_false] at ht'
      exact ⟨hrow t ht' hid ▸ hs, (hmem t ht').2⟩
    · intro m hm
      simp [wake, TaskTable.none, Table.find] at hm
    · intro m hm
      simp [wake, TaskTable.none, Table.find] at hm

theorem query_sim (ht : s.todo = [.query]) (dbErr : Bool)
    (hreg : s.regular cfg id (.query dbErr) = true) :
    Sim lossless quota id s (s.query cfg dbErr) := by
  obtain ⟨r, hr, hs⟩ := hT.row
  set mem := (s.query cfg dbErr).mem with hmemdef
  have hmem : ∀ m ∈ mem.rows, m ∈ s.tasks.getAllUnFinishSyncTasks cfg.taskQueryLimit := by
    intro m hm
    rcases dbErr
    · exact hm
    · simp [hmemdef, query, TaskTable.none] at hm
  have halone : Alone mem id := by
    simp only [regular, all_eq_true, decide_eq_true_eq] at hreg
    exact fun m hm hid t ht hne hp hu => hreg m (hmem m hm) t (hmem t ht) hid hne hp hu
  have hfound : ∀ m, mem.find id = some m → m = r ∧ TaskTable.unfinished r = true := by
    intro m hm
    obtain ⟨h1, h2⟩ := TaskTable.mem_getAllUnFinishSyncTasks (hmem m (Table.mem_of_find hm))
    have := Table.find_of_mem h1
    rw [Table.key_of_find hm, hr, Option.some.injEq] at this
    exact ⟨this.symm, this ▸ h2⟩
  have hview : (s.query cfg dbErr).view id =
      ⟨some r, touches id ((mem.find id).map Task.route) [.platforms mem.platforms],
        s.returned id⟩ := congrArg (TaskView.mk · _ _) hr
  have hold : s.view id = ⟨some r, 0, s.returned id⟩ := by
    simp only [view, hr, ht]
    rfl
  constructor
  · rw [hview, hold]
    rcases hf : mem.find id with _ | m
    · exact .idle (Nat.le_refl 0)
    · refine .select (hfound m hf).2 ?_
      exact nodup_iff_count_le_one.1 (nodup_dedup _) _
  · refine ⟨⟨r, hr, hs⟩, fun t ht' => ?_, halone, fun m hm hl => ?_, fun m hm _ => ?_, hT.fetches⟩
    · simp [query] at ht'
    · exact (hfound m hm).1 ▸ hs.named hl
    · obtain ⟨rfl, hu⟩ := hfound m hm
      exact ⟨hs, hu⟩

end

theorem platform_erase_le (id : ℕ) {ps : List String} (hk : ps[k]? = some p)
    (m : Option Route) (cs : List ℕ) (hcs : cs.Nodup) :
    touches id m (if p = taskPlatformMidjourney then [] else [.channels p cs]) +
      (Act.platforms (ps.eraseIdx k)).touches id m ≤ (Act.platforms ps).touches id m := by
  rcases m with _ | m
  · rw [touches_none]
    · exact Nat.le_refl 0
    · intro t ht
      split_ifs at ht <;> simp at ht
  · have h1 := count_eraseIdx hk m.platform
    have h2 : touches id (some m) (if p = taskPlatformMidjourney then [] else [.channels p cs]) ≤
        if p = m.platform then 1 else 0 := by
      split_ifs with h3 h4 h4
      · exact Nat.zero_le _
      · exact Nat.zero_le _
      · simpa [Act.touches, h4] using nodup_iff_count_le_one.1 hcs m.channelId
      · simp [Act.touches, Ne.symm h4]
    simp only [Act.touches, Option.elim_some]
    omega

theorem platform_sim (hT : Tracked lossless quota id s) {ps : List String}
    (ht : s.todo = .platforms ps :: todo) (hk : ps[k]? = some p)
    (dbErr : Bool) : Sim lossless quota id s
      ({ s with todo := .platforms (ps.eraseIdx k) :: todo }.platform p dbErr) := by
  refine bulk_sim hT rfl rfl rfl (fun t ht' => ?_) ?_ rfl fun hl hid => ?_
  · simp only [platform, mem_append] at ht'
    rcases ht' with ht' | ht'
    · split_ifs at ht' <;> simp at ht'
    · rw [ht]
      simpa using ht'
  · have := platform_erase_le id hk (s.route id) _ (nodup_dedup
      ((s.mem.ofPlatform p).map Task.channelId))
    simp only [platform, ht, touches_append, touches_cons, TaskTable.taskChannels]
    omega
  · simp only [TaskTable.nullTaskIds, mem_map, mem_filter, Bool.and_eq_true,
      decide_eq_true_eq] at hid
    obtain ⟨t, ⟨hmem, -, hu⟩, rfl⟩ := hid
    exact upstreamID_ne_of_named (hT.named t (Table.find_of_mem hmem) hl) hu

theorem channels_erase (id : ℕ) {c : ℕ} (p : String) {cs : List ℕ} (hk : cs[k]? = some c)
    (m : Option Route) :
    (Act.channels p (cs.eraseIdx k)).touches id m +
      (m.elim 0 fun m => if m.platform = p ∧ m.channelId = c then 1 else 0) =
    (Act.channels p cs).touches id m := by
  rcases m with _ | m
  · rfl
  · have := count_eraseIdx hk m.channelId
    by_cases hp : m.platform = p
    · simpa [Act.touches, hp, eq_comm] using this
    · simp [Act.touches, hp]

theorem answer_touches_le (ha : Alone s.mem id) (p : String) (c : ℕ) (items : List SunoDataResponse)
    (hitems : ∀ m, s.mem.find id = some m →
      items.countP (·.taskID = m.getUpstreamTaskID) ≤
        (s.mem.taskIds p c).count m.getUpstreamTaskID) :
    touches id (s.route id)
      (if p = taskPlatformSuno then items.map .suno else (s.mem.taskIds p c).map (.video p)) ≤
    (s.route id).elim 0 fun m => if m.platform = p ∧ m.channelId = c then 1 else 0 := by
  unfold route
  rcases hm : s.mem.find id with _ | m
  · refine (touches_none id fun t ht => ?_).le
    split_ifs at ht <;> simp at ht
  · by_cases hp : m.platform = p
    · subst hp
      have hle : touches id (some m.route) (if m.platform = taskPlatformSuno then items.map .suno
          else (s.mem.taskIds m.platform c).map (.video m.platform)) ≤
          (s.mem.taskIds m.platform c).count m.getUpstreamTaskID := by
        split_ifs with h1
        · rw [touches_map_suno, route_platform, if_pos h1]
          exact hitems m hm
        · rw [touches_map_video, route_platform, if_pos rfl, route_upstreamID]
      simp only [Option.map_some, Option.elim_some, route_platform, route_channelId, true_and]
      exact hle.trans (taskIds_count_le ha hm c)
    · refine le_of_eq_of_le ?_ (Nat.zero_le _)
      split_ifs with h1
      · rw [Option.map_some, touches_map_suno, route_platform, if_neg fun h => hp (h.trans h1.symm)]
      · rw [Option.map_some, touches_map_video, route_platform, if_neg hp]

theorem channel_sim (hT : Tracked lossless quota id s) {c : ℕ} {cs : List ℕ}
    (ht : s.todo = .channels p cs :: todo) (hk : cs[k]? = some c)
    (answer : ChannelAnswer) (dbErr : Bool)
    (hreg : s.regular cfg id (.channel k answer dbErr) = true)
    (hcare : lossless → s.careful id (.channel k answer dbErr) = true) :
    Sim lossless quota id s
      ({ s with todo := .channels p (cs.eraseIdx k) :: todo }.channel p c answer dbErr) := by
  have herase := channels_erase id p hk (s.route id)
  have hsweep : ∀ t, Act.sweep t ∈ Act.channels p (cs.eraseIdx k) :: todo → .sweep t ∈ s.todo := by
    intro t ht'
    rw [ht]
    simpa using ht'
  have hle : touches id (s.route id) (.channels p (cs.eraseIdx k) :: todo) ≤
      touches id (s.route id) s.todo := by
    simp only [ht, touches_cons]
    omega
  cases answer with
  | notFound =>
    refine bulk_sim hT rfl rfl rfl hsweep hle rfl fun hl hid => ?_
    simp only [mem_filterMap, Option.map_eq_some_iff] at hid
    obtain ⟨u, hu, t, htm, rfl⟩ := hid
    obtain ⟨h1, h2, h3, h4⟩ := mem_of_taskM htm
    have hm := Table.find_of_mem h1
    have hcare := hcare hl
    simp only [careful, ht, hm, hk, Option.all_some, decide_eq_true_eq] at hcare
    have hcount := taskIds_count_le hT.alone hm c
    rw [h2, h3, if_neg fun h => hcare ⟨h2, h⟩] at hcount
    exact absurd hu (count_eq_zero.1 (Nat.le_zero.1 hcount))
  | noAnswer => exact todo_sim hT rfl rfl rfl hsweep hle rfl
  | answer items =>
    refine todo_sim hT rfl rfl rfl (fun t ht' => ?_) ?_ rfl
    · refine hsweep t ?_
      simp only [channel, mem_append] at ht'
      refine ht'.resolve_left fun h => ?_
      split_ifs at h <;> simp at h
    · have hmain := answer_touches_le hT.alone p c items fun m hm => by
        simpa only [regular, ht, hm, hk, Option.all_some, decide_eq_true_eq] using hreg
      simp only [channel, ht, touches_append, touches_cons]
      omega

theorem fetchRead_sim (hT : Tracked lossless quota id s) (i : ℕ) : Sim lossless quota id s
      { s with fetches := s.fetches ++ (s.tasks.find i).toList.map some } := by
  obtain ⟨r, hr, hs⟩ := hT.row
  refine ⟨.idle (Nat.le_refl _), hT.row, hT.sweeps, hT.alone, hT.named, hT.mem, fun t ht hid => ?_⟩
  rcases mem_append.1 ht with ht | ht
  · exact hT.fetches t ht hid
  · simp only [mem_map, Option.mem_toList, Option.some.injEq, exists_eq_right] at ht
    have hi : t.id = i := Table.key_of_find ht
    rw [← hi, hid, hr, Option.some.injEq] at ht
    exact ht ▸ hs

theorem keeps_applyRealtime {r : Task} {ti : TaskInfo} (hrs : r.status = t.status)
    (h : (TaskTable.unfinished r = true ∧ ti.status ≠ .failure) ∨
      ((ti.status = .empty ∨ ti.status = r.status) ∧ orProgress ti t.progress = r.progress)) :
    Keeps r (applyRealtime cfg t ti) := by
  refine h.imp (fun ⟨h1, h2⟩ => ⟨h1, ?_⟩) fun ⟨h1, h2⟩ => ⟨?_, h2⟩
  · simp only [applyRealtime]
    split_ifs
    · exact h2
    · intro hf
      have := TaskTable.not_isDone_of_unfinished h1
      rw [hrs, hf] at this
      cases this
  · simp only [applyRealtime]
    split_ifs with h3
    · exact h1.resolve_left h3
    · exact hrs.symm

theorem fetchWrite_sim (hT : Tracked lossless quota id s)
    (hk : s.fetches[k]? = some (some t)) {ti : TaskInfo} {dbErr : Bool}
    (hkeep : s.fetchKeeps id (.fetchWrite k ti dbErr) = true) :
    Sim lossless quota id s (s.fetchWrite cfg k t ti dbErr) := by
  obtain ⟨r, hr, hs⟩ := hT.row
  have hold : s.view id = ⟨some r, touches id (s.route id) s.todo, s.returned id⟩ := by
    simp [view, hr]
  have hfetch : ∀ u, some u ∈ s.fetches.set k none → some u ∈ s.fetches := fun u hu =>
    (mem_or_eq_of_mem_set hu).resolve_right (by simp)
  have hmain : ∀ r', (s.fetchWrite cfg k t ti dbErr).tasks.find id = some r' →
      Sound lossless quota r' → (r' = r ∨ Keeps r r') →
      Sim lossless quota id s (s.fetchWrite cfg k t ti dbErr) := by
    intro r' h1 h2 h3
    refine ⟨?_, hT.next (t := r) ⟨r', h1, h2⟩ (fun u hu => hu) hfetch (.inl rfl) (.inl rfl)
      (Nat.le_refl _)⟩
    have hview : (s.fetchWrite cfg k t ti dbErr).view id =
        ⟨some r', touches id (s.route id) s.todo, s.returned id⟩ := congrArg (TaskView.mk · _ _) h1
    rw [hold, hview]
    rcases h3 with rfl | h3
    · exact .idle (Nat.le_refl _)
    · exact .fetch h3
  by_cases hsnap : t.snapshot ≠ (applyRealtime cfg t ti).snapshot
  · rcases s.tasks.updateWithStatus_cases dbErr (applyRealtime cfg t ti) t.status with
      ⟨h1, -⟩ | ⟨-, h, r₀, hr₀, hrs⟩
    · refine hmain r ?_ hs (.inl rfl)
      simp only [fetchWrite, if_pos hsnap, h1]
      exact hr
    · have htasks : (s.fetchWrite cfg k t ti dbErr).tasks =
          s.tasks.put (applyRealtime cfg t ti) := by
        simp [fetchWrite, if_pos hsnap, h]
      by_cases hid : t.id = id
      · have hself := Table.find_put_self (a := applyRealtime cfg t ti) hr₀
        have hr₀ : s.tasks.find t.id = some r₀ := hr₀
        rw [hid, hr] at hr₀
        cases hr₀
        have hst := hT.fetches t (mem_of_getElem? hk) hid
        refine hmain _ (by rw [htasks, ← hid]; exact hself)
          (hst.congr (charge_applyRealtime cfg t ti) rfl) (.inr (keeps_applyRealtime hrs ?_))
        simp only [fetchKeeps, hk, hr, decide_eq_true_eq] at hkeep
        exact hkeep hid hrs
      · refine hmain r ?_ hs (.inl rfl)
        rw [htasks, Table.find_put_of_ne (a := applyRealtime cfg t ti) _ (Ne.symm hid)]
        exact hr
  · refine hmain r ?_ hs (.inl rfl)
    simp only [fetchWrite, if_neg hsnap]
    exact hr

theorem mem_sound (hT : Tracked lossless quota id s) {u : String} {a : Act}
    (ht : s.todo = a :: todo) (hm : s.mem.taskM p u = some t) (hid : t.id = id)
    (ha : a.touches id (some t.route) = 1) :
    a.touches id (s.route id) = 1 ∧ Sound lossless quota t ∧ TaskTable.unfinished t = true := by
  have hfind := Table.find_of_mem (mem_of_taskM hm).1
  rw [hid] at hfind
  have hroute : s.route id = some t.route := by rw [route, hfind, Option.map_some]
  refine ⟨by rw [hroute, ha], hT.mem t hfind ?_⟩
  simp only [view, ht, touches_cons, hroute, ha]
  omega

theorem refunds_of_succeeds {ok fe : Bool} (h : (ok && !fe) = true) : fe = false := by
  rw [Bool.and_eq_true, Bool.not_eq_true'] at h
  exact h.2

theorem step_sim (hT : Tracked lossless quota id s) (hone : (s.view id).pending ≤ 1)
    {e : LoopEvent} (hreg : s.regular cfg id e = true) (hkeep : s.fetchKeeps id e = true)
    (hl : lossless → s.careful id e = true ∧ e.succeeds = true) :
    Sim lossless quota id s (step cfg s e) := by
  have hself : Sim lossless quota id s s :=
    todo_sim hT rfl rfl rfl (fun _ h => h) (Nat.le_refl _) rfl
  have hpop : ∀ {a : Act} {todo : List Act}, s.todo = a :: todo →
      Sim lossless quota id s { s with todo := todo } := fun ht =>
    todo_sim hT rfl rfl rfl (fun _ h => by rw [ht]; exact mem_cons_of_mem _ h)
      (by rw [ht, touches_cons]; exact Nat.le_add_left _ _) rfl
  cases e with
  | wake now dbErr =>
    simp only [step]
    split_ifs with ht
    · exact wake_sim hT ht now dbErr
    · exact hself
  | sweep now dbErr fe =>
    simp only [step]
    split
    · rename_i t todo ht
      have hfe : lossless → fe = false := fun h => refunds_of_succeeds (hl h).2
      refine (sweep_polled cfg _ t now dbErr fe hfe).sim hT ht hone fun hid => ?_
      exact ⟨if_pos hid, hT.sweeps t (by rw [ht]; exact mem_cons_self) hid⟩
    · exact hself
  | query dbErr =>
    simp only [step]
    split_ifs with ht
    · exact query_sim hT ht dbErr hreg
    · exact hself
  | platform _ dbErr =>
    simp only [step]
    split
    · rename_i ps todo ht
      split
      · rename_i p hk
        exact platform_sim hT ht hk dbErr
      · split_ifs
        · exact hpop ht
        · exact hself
    · exact hself
  | channel _ answer dbErr =>
    simp only [step]
    split
    · rename_i p cs todo ht
      split
      · rename_i c hk
        exact channel_sim hT ht hk answer dbErr hreg fun h => (hl h).1
      · split_ifs
        · exact hpop ht
        · exact hself
    · exact hself
  | video now resp q dbErr fe =>
    simp only [step]
    split
    · rename_i p u todo ht
      have hfe : lossless → fe = false := fun h => refunds_of_succeeds (hl h).2
      rcases hm : s.mem.taskM p u with _ | t
      · simp only [video, hm]
        exact hpop ht
      · refine (video_polled (s := { s with todo := todo }) hm now resp q dbErr fe hfe).sim hT ht
          hone fun hid => ?_
        obtain ⟨-, h1, h2, -⟩ := mem_of_taskM hm
        exact mem_sound hT ht hm hid (by simp [Act.touches, h1, h2])
    · exact hself
  | suno dbErr fe =>
    simp only [step]
    split
    · rename_i item todo ht
      have hfe : lossless → fe = false := fun h => refunds_of_succeeds (hl h).2
      rcases hm : s.mem.taskM taskPlatformSuno item.taskID with _ | t
      · simp only [suno, hm]
        exact todo_sim hT rfl rfl rfl (by simp) (Nat.zero_le _) rfl
      · refine (suno_polled (s := { s with todo := todo }) hm dbErr fe hfe (fun h => ?_) ?_).sim hT
          ht hone fun hid => ?_
        · simpa [careful, ht] using (hl h).1
        · simp only [regular, ht, hm, Option.all_some, decide_eq_true_eq] at hreg
          exact hreg
        · obtain ⟨-, h1, h2, -⟩ := mem_of_taskM hm
          exact mem_sound hT ht hm hid (by simp [Act.touches, h1, h2])
    · exact hself
  | fetchRead i => exact fetchRead_sim hT i
  | fetchWrite =>
    simp only [step]
    split
    · rename_i t hk
      exact fetchWrite_sim hT hk hkeep
    · exact hself

theorem refunded_run (cfg : PollConfig) (es : List LoopEvent) (hT : Tracked lossless quota id s)
    (hR : Refunded lossless quota (s.view id))
    (h : Along (step cfg) (fun s e => s.regular cfg id e = true ∧ s.fetchKeeps id e = true ∧
      (lossless → s.careful id e = true ∧ e.succeeds = true)) s es) :
    Refunded lossless quota ((run (step cfg) s es).view id) := by
  refine (Along.run_inv (I := fun s => Tracked lossless quota id s ∧
    Refunded lossless quota (s.view id)) ?_ ⟨hT, hR⟩ h).2
  rintro s e ⟨hT, hR⟩ ⟨h1, h2, h3⟩
  obtain ⟨h4, h5⟩ := step_sim hT hR.pending h1 h2 h3
  exact ⟨h5, h4.refunded hR⟩

end Loop

end AggreApi
