import AggreApi.TaskLoop
import AggreApi.Proofs.TaskRace

/-!
# What the polling loop does to one task

The loop is followed from the side of a single task: its row, how many acts still to come can reach
it, and what has been returned for it. `TaskStep` says how these three can change, and `step_view`
that the loop changes them in no other way.
-/

namespace AggreApi

open List TaskTable

variable {t t' : Task} {mem mem' : TaskTable} {fe : Bool} {now : ℤ} {resp : Response}
  {d : VideoDecision} {item : SunoDataResponse}

/-- One task of the loop: its row, the acts that can still reach it, what it got back. -/
structure TaskView where
  row : Option Task
  pending : ℕ
  returned : List ℤ

/-- A write over the row `r` by someone who does not bill. -/
def Keeps (r t : Task) : Prop :=
  unfinished r = true ∧ t.status ≠ .failure ∨
    t.status = r.status ∧ t.progress = r.progress

inductive TaskStep (lossless : Prop) (quota : ℤ) : TaskView → TaskView → Prop
  | idle {r : Option Task} {p p' : ℕ} {l : List ℤ} (h : p' ≤ p) :
      TaskStep lossless quota ⟨r, p, l⟩ ⟨r, p', l⟩
  | select {r : Task} {p' : ℕ} {l : List ℤ} (hr : unfinished r = true) (h : p' ≤ 1) :
      TaskStep lossless quota ⟨some r, 0, l⟩ ⟨some r, p', l⟩
  | poll {r : Option Task} {t : Task} {p p' : ℕ} {l l' : List ℤ} (h : p' < p)
      (hl : l' = l ∨ l' = l ++ [quota] ∧ unfinished t = false)
      (hf : lossless → t.status = .failure → l' = l ++ [quota]) :
      TaskStep lossless quota ⟨r, p, l⟩ ⟨some t, p', l'⟩
  | fetch {r t : Task} {p : ℕ} {l : List ℤ} (h : Keeps r t) :
      TaskStep lossless quota ⟨some r, p, l⟩ ⟨some t, p, l⟩
  | fail {r t : Task} {p p' : ℕ} {l : List ℤ} (hl : ¬lossless)
      (ht : unfinished t = false) (h : p' ≤ p) :
      TaskStep lossless quota ⟨some r, p, l⟩ ⟨some t, p', l⟩

/-- At most one act can reach the task, and none once it has been refunded, which is once. -/
structure Refunded (lossless : Prop) (quota : ℤ) (v : TaskView) : Prop where
  pending : v.pending ≤ 1
  once : v.returned = [] ∨ v.returned = [quota] ∧ v.pending = 0 ∧
    ∀ r, v.row = some r → unfinished r = false
  failed : lossless → ∀ r, v.row = some r → r.status = .failure → v.returned = [quota]

variable {lossless : Prop} {quota : ℤ}

theorem unfinished_congr {r : Task} (hs : t.status = r.status) (hp : t.progress = r.progress) :
    unfinished t = unfinished r := by
  simp [unfinished, hs, hp]

theorem TaskStep.refunded {v v' : TaskView} (h : TaskStep lossless quota v v')
    (hv : Refunded lossless quota v) : Refunded lossless quota v' := by
  obtain ⟨hp, ho, hf⟩ := hv
  cases h with
  | idle h =>
    refine ⟨h.trans hp, ho.imp_right fun ⟨h1, h2, h3⟩ => ⟨h1, ?_, h3⟩, hf⟩
    exact Nat.le_zero.1 (h2 ▸ h)
  | @select r p' l hr h =>
    refine ⟨h, .inl (ho.resolve_right fun ⟨_, _, h3⟩ => ?_), hf⟩
    exact absurd (hr.symm.trans (h3 r rfl)) (by decide)
  | @poll r t p p' l l' h hl hf' =>
    have h1 : p = 1 := by simp only at hp; omega
    obtain rfl : l = [] := ho.resolve_right fun h => absurd (h1.symm.trans h.2.1) (by decide)
    refine ⟨by simp only; omega, hl.imp_right fun ⟨h2, h3⟩ => ⟨h2, by simp only; omega, ?_⟩, ?_⟩
    · rintro hl _ ⟨⟩
      exact hf' hl
    · rintro _ ⟨⟩
      exact h3
  | @fetch r t p l h =>
    rcases h with ⟨h1, h2⟩ | ⟨h1, h2⟩
    · refine ⟨hp, .inl (ho.resolve_right fun ⟨_, _, h3⟩ => ?_), ?_⟩
      · exact absurd (h1.symm.trans (h3 r rfl)) (by decide)
      · rintro hl _ ⟨⟩ ht
        exact absurd ht h2
    · refine ⟨hp, ho.imp_right fun ⟨h3, h4, h5⟩ => ⟨h3, h4, ?_⟩, ?_⟩
      · rintro hl _ ⟨⟩ ht
        exact hf hl r rfl (h1 ▸ ht)
      · rintro _ ⟨⟩
        rw [unfinished_congr h1 h2]
        exact h5 r rfl
  | fail hl ht h =>
    refine ⟨h.trans hp, ho.imp_right fun ⟨h1, h2, _⟩ => ⟨h1, Nat.le_zero.1 (h2 ▸ h), ?_⟩,
      fun h => absurd h hl⟩
    rintro _ ⟨⟩
    exact ht

/-- The columns a task is found by in a round; no poll changes them. -/
structure Route where
  id : ℕ
  taskID : String
  platform : String
  channelId : ℕ
  upstreamID : String

def Task.route (t : Task) : Route := ⟨t.id, t.taskID, t.platform, t.channelId, t.getUpstreamTaskID⟩

@[simp] theorem route_platform (t : Task) : t.route.platform = t.platform := rfl

@[simp] theorem route_channelId (t : Task) : t.route.channelId = t.channelId := rfl

@[simp] theorem route_upstreamID (t : Task) : t.route.upstreamID = t.getUpstreamTaskID := rfl

theorem route_applyTaskResult (cfg : PollConfig) (now : ℤ) (t : Task) (ti : TaskInfo) :
    (applyTaskResult cfg now t ti).1.route = t.route := by
  unfold applyTaskResult
  split <;> rfl

theorem route_videoAnswer (cfg : PollConfig) (now : ℤ) (t : Task) (resp : Response) :
    (videoAnswer cfg now t resp).1.route = t.route := by
  unfold videoAnswer
  split
  · rfl
  · split
    · rfl
    · rw [route_applyTaskResult]
      rfl

/-- A copy of a task that can be refunded in full, and under `lossless` that will be. -/
structure Sound (lossless : Prop) (quota : ℤ) (t : Task) : Prop where
  amount : t.quota = quota
  charged : lossless → quota ≠ 0
  recent : lossless → isLegacy t = false
  named : lossless → t.taskID ≠ ""

theorem Sound.congr (h : Sound lossless quota t) (hc : t'.charge = t.charge)
    (hr : t'.route = t.route) : Sound lossless quota t' where
  amount := (congrArg (·.2.1) hc).trans h.amount
  charged := h.charged
  recent hl := (isLegacy_congr hc).trans (h.recent hl)
  named hl := (congrArg Route.taskID hr).trans_ne (h.named hl)

/-- How often an act can reach the task that a round found by the route `m`. -/
def Act.touches (id : ℕ) (m : Option Route) : Act → ℕ
  | .sweep t => if t.id = id then 1 else 0
  | .query => 0
  | .platforms ps => m.elim 0 fun m => ps.count m.platform
  | .channels p cs => m.elim 0 fun m => if m.platform = p then cs.count m.channelId else 0
  | .video p u => m.elim 0 fun m => if m.platform = p ∧ m.upstreamID = u then 1 else 0
  | .suno item =>
    m.elim 0 fun m => if m.platform = taskPlatformSuno ∧ m.upstreamID = item.taskID then 1 else 0

def touches (id : ℕ) (m : Option Route) (todo : List Act) : ℕ := (todo.map (Act.touches id m)).sum

@[simp] theorem touches_nil (id : ℕ) (m : Option Route) : touches id m [] = 0 := rfl

@[simp] theorem touches_cons (id : ℕ) (m : Option Route) (a : Act) (todo : List Act) :
    touches id m (a :: todo) = a.touches id m + touches id m todo := rfl

theorem touches_append (id : ℕ) (m : Option Route) (todo todo' : List Act) :
    touches id m (todo ++ todo') = touches id m todo + touches id m todo' := by
  simp [touches, sum_append]

namespace Loop

variable {cfg : PollConfig} {id : ℕ} {s s' : Loop}

def route (s : Loop) (id : ℕ) : Option Route := (s.mem.find id).map Task.route

def view (s : Loop) (id : ℕ) : TaskView :=
  ⟨s.tasks.find id, touches id (s.route id) s.todo, s.returned id⟩

/-- No other task of the round has the task's upstream id on its platform. -/
def Alone (mem : TaskTable) (id : ℕ) : Prop :=
  ∀ m ∈ mem.rows, m.id = id → ∀ t ∈ mem.rows, t.getUpstreamTaskID ≠ "" →
    t.platform = m.platform → t.getUpstreamTaskID = m.getUpstreamTaskID → t.id = id

/-- Every copy of the task that can still be written or refunded is a sound one, and one the polls
hold is unfinished. -/
structure Tracked (lossless : Prop) (quota : ℤ) (id : ℕ) (s : Loop) : Prop where
  row : ∃ r, s.tasks.find id = some r ∧ Sound lossless quota r
  sweeps : ∀ t, .sweep t ∈ s.todo → t.id = id →
    Sound lossless quota t ∧ unfinished t = true
  alone : Alone s.mem id
  named : ∀ m, s.mem.find id = some m → lossless → m.taskID ≠ ""
  mem : ∀ m, s.mem.find id = some m → 0 < (s.view id).pending →
    Sound lossless quota m ∧ unfinished m = true
  fetches : ∀ t, some t ∈ s.fetches → t.id = id → Sound lossless quota t

theorem alone_none (id : ℕ) : Alone .none id := by
  intro m hm
  simp [TaskTable.none] at hm

theorem alone_put (h : Alone mem id)
    (ht : mem.find t.id = some t) (hr : t'.route = t.route) : Alone (mem.put t') id := by
  have hback : ∀ r ∈ (mem.put t').rows, ∃ r₀ ∈ mem.rows, r₀.route = r.route := by
    intro r hr'
    rcases Table.mem_put hr' with h | ⟨rfl, -⟩
    · exact ⟨r, h, rfl⟩
    · exact ⟨t, Table.mem_of_find ht, hr.symm⟩
  intro m hm hid u hu hne hp hup
  obtain ⟨m₀, hm₀, hmr⟩ := hback m hm
  obtain ⟨u₀, hu₀, hur⟩ := hback u hu
  simp only [Task.route, Route.mk.injEq] at hmr hur
  obtain ⟨hm1, -, hm2, -, hm3⟩ := hmr
  obtain ⟨hu1, -, hu2, -, hu3⟩ := hur
  rw [← hu1]
  refine h m₀ hm₀ (hm1.trans hid) u₀ hu₀ (by rwa [hu3]) ?_ ?_
  · rw [hu2, hm2, hp]
  · rw [hu3, hm3, hup]

/-- The objects of a round after an act. -/
def MemStep (mem mem' : TaskTable) (t : Task) : Prop :=
  mem' = mem ∨ mem.find t.id = some t ∧ ∃ t' : Task, t'.route = t.route ∧ mem' = mem.put t'

theorem MemStep.route_find (h : MemStep mem mem' t) (id : ℕ) :
    (mem'.find id).map Task.route = (mem.find id).map Task.route := by
  rcases h with rfl | ⟨ht, t', hr, rfl⟩
  · rfl
  · have hid : t'.id = t.id := congrArg Route.id hr
    exact Table.map_find_put Task.route (by rw [hid]; exact ht) hr id

theorem MemStep.alone (h : MemStep mem mem' t) (ha : Alone mem id) : Alone mem' id := by
  rcases h with rfl | ⟨ht, t', hr, rfl⟩
  · exact ha
  · exact alone_put ha ht hr

theorem MemStep.find_of_ne (h : MemStep mem mem' t)
    (hne : t.id ≠ id) : mem'.find id = mem.find id := by
  rcases h with rfl | ⟨-, t', hr, rfl⟩
  · rfl
  · have hid : t'.id = t.id := congrArg Route.id hr
    exact Table.find_put_of_ne _ (by rw [hid]; exact hne.symm)

theorem taskID_of_route {o : Option Task} {m : Task} (h : o.map Task.route = some m.route) :
    ∃ m₀, o = some m₀ ∧ m₀.taskID = m.taskID := by
  obtain ⟨m₀, hm, hr⟩ := Option.map_eq_some_iff.1 h
  simp only [Task.route, Route.mk.injEq] at hr
  exact ⟨m₀, hm, hr.2.1⟩

theorem Tracked.next (hT : Tracked lossless quota id s)
    (hrow : ∃ r, s'.tasks.find id = some r ∧ Sound lossless quota r)
    (hsweep : ∀ t, .sweep t ∈ s'.todo → .sweep t ∈ s.todo)
    (hfetch : ∀ t, some t ∈ s'.fetches → some t ∈ s.fetches)
    (hmem : MemStep s.mem s'.mem t)
    (hself : s'.mem.find id = s.mem.find id ∨ (s'.view id).pending = 0)
    (hle : (s'.view id).pending ≤ (s.view id).pending) : Tracked lossless quota id s' where
  row := hrow
  sweeps u hu := hT.sweeps u (hsweep u hu)
  alone := hmem.alone hT.alone
  named m hm hl := by
    obtain ⟨m₀, hm₀, he⟩ := taskID_of_route ((hmem.route_find id).symm.trans (by rw [hm]; rfl))
    exact he ▸ hT.named m₀ hm₀ hl
  mem m hm hp := by
    rcases hself with h | h
    · exact hT.mem m (h ▸ hm) (hp.trans_le hle)
    · omega
  fetches u hu := hT.fetches u (hfetch u hu)

/-- What an act that comes upon the copy `t` of a task does. -/
structure Polled (lossless : Prop) (quota : ℤ) (id : ℕ) (t : Task) (s s' : Loop) : Prop where
  todo : s'.todo = s.todo
  fetches : s'.fetches = s.fetches
  mem : MemStep s.mem s'.mem t
  other : t.id ≠ id → s'.tasks.find id = s.tasks.find id ∧ s'.returned id = s.returned id
  self : t.id = id → Sound lossless quota t → unfinished t = true →
    s'.tasks = s.tasks ∧ s'.returned id = s.returned id ∨
    ∃ t' : Task, t'.id = id ∧ Sound lossless quota t' ∧ s'.tasks = s.tasks.put t' ∧
      (s'.returned id = s.returned id ∨
        s'.returned id = s.returned id ++ [quota] ∧ unfinished t' = false) ∧
      (lossless → t'.status = .failure → s'.returned id = s.returned id ++ [quota])

section
variable (htodo : s'.todo = s.todo) (hfetch : s'.fetches = s.fetches)
  (hmem : MemStep s.mem s'.mem t) (htasks : s'.tasks = s.tasks)
include htodo hfetch hmem htasks

theorem Polled.keep {l : List ℤ} (hret : s'.returned id = s.returned id ++ l)
    (hother : t.id ≠ id → l = []) (hself : t.id = id → unfinished t = true → l = []) :
    Polled lossless quota id t s s' := by
  refine ⟨htodo, hfetch, hmem, fun hne => ⟨by rw [htasks], ?_⟩, fun heq _ hu => .inl ⟨htasks, ?_⟩⟩
  · rw [hret, hother hne, append_nil]
  · rw [hret, hself heq hu, append_nil]

theorem Polled.skip (href : s'.refunds = s.refunds) : Polled lossless quota id t s s' :=
  .keep htodo hfetch hmem htasks (by rw [append_nil, returned, href]; rfl) (fun _ => rfl)
    fun _ _ => rfl

end

theorem Polled.write (t' : Task) {l : List ℤ} (htodo : s'.todo = s.todo)
    (hfetch : s'.fetches = s.fetches) (hmem : MemStep s.mem s'.mem t) (hid : t'.id = t.id)
    (htasks : s'.tasks = s.tasks.put t') (hret : s'.returned id = s.returned id ++ l)
    (hother : t.id ≠ id → l = [])
    (hself : t.id = id → Sound lossless quota t → unfinished t = true →
      Sound lossless quota t' ∧ (l = [] ∨ l = [quota] ∧ unfinished t' = false) ∧
        (lossless → t'.status = .failure → l = [quota])) :
    Polled lossless quota id t s s' := by
  refine ⟨htodo, hfetch, hmem, fun hne => ⟨?_, ?_⟩, fun heq hs hu => ?_⟩
  · rw [htasks]
    exact Table.find_put_of_ne _ (by rw [hid]; exact hne.symm)
  · rw [hret, hother hne, append_nil]
  · obtain ⟨h1, h2, h3⟩ := hself heq hs hu
    refine .inr ⟨t', hid.trans heq, h1, htasks, ?_, fun hl hf => by rw [hret, h3 hl hf]⟩
    rw [hret]
    exact h2.imp (fun h => by rw [h, append_nil]) fun h => ⟨by rw [h.1], h.2⟩

/-- The loop changed the view of the task by a `TaskStep` and still tracks it. -/
def Sim (lossless : Prop) (quota : ℤ) (id : ℕ) (s s' : Loop) : Prop :=
  TaskStep lossless quota (s.view id) (s'.view id) ∧ Tracked lossless quota id s'

theorem Polled.sim {a : Act} {todo : List Act}
    (h : Polled lossless quota id t { s with todo := todo } s')
    (hT : Tracked lossless quota id s) (ht : s.todo = a :: todo)
    (hone : (s.view id).pending ≤ 1)
    (hself : t.id = id → a.touches id (s.route id) = 1 ∧ Sound lossless quota t ∧
      unfinished t = true) :
    Sim lossless quota id s s' := by
  have hroute : s'.route id = s.route id := h.mem.route_find id
  have hview : s'.view id = ⟨s'.tasks.find id, touches id (s.route id) todo, s'.returned id⟩ := by
    simp [view, hroute, h.todo]
  have hpend : (s.view id).pending = a.touches id (s.route id) + touches id (s.route id) todo := by
    simp [view, ht, touches_cons]
  have hle : (s'.view id).pending ≤ (s.view id).pending := by
    rw [hview, hpend]
    exact Nat.le_add_left _ _
  have hsweep : ∀ u, Act.sweep u ∈ s'.todo → Act.sweep u ∈ s.todo := by
    intro u hu
    rw [ht]
    rw [h.todo] at hu
    exact mem_cons_of_mem _ hu
  have hfetch : ∀ u, some u ∈ s'.fetches → some u ∈ s.fetches := by
    intro u hu
    rwa [h.fetches] at hu
  obtain ⟨r, hr, hrs⟩ := hT.row
  by_cases hid : t.id = id
  · obtain ⟨h1, h2, h3⟩ := hself hid
    have h0 : (s'.view id).pending = 0 := by
      rw [hview]
      simp only
      omega
    have hlt : (s'.view id).pending < (s.view id).pending := by omega
    rcases h.self hid h2 h3 with ⟨h4, h5⟩ | ⟨t', ht', h4, h5, h6, h7⟩
    · refine ⟨?_, hT.next ⟨r, by rw [h4]; exact hr, hrs⟩ hsweep hfetch h.mem (.inr h0) hle⟩
      rw [show s'.view id = ⟨s.tasks.find id, (s'.view id).pending, s.returned id⟩ by
        rw [hview, h4, h5]; rfl]
      exact .idle hle
    · have hfind : s'.tasks.find id = some t' := by
        rw [h5, ← ht']
        exact Table.find_put_self (r := r) (by rw [ht']; exact hr)
      refine ⟨?_, hT.next ⟨t', hfind, h4⟩ hsweep hfetch h.mem (.inr h0) hle⟩
      rw [show s'.view id = ⟨some t', (s'.view id).pending, s'.returned id⟩ by
        rw [hview, hfind]]
      exact .poll hlt h6 h7
  · obtain ⟨h4, h5⟩ := h.other hid
    refine ⟨?_, hT.next ⟨r, by rw [h4]; exact hr, hrs⟩ hsweep hfetch h.mem
      (.inl (h.mem.find_of_ne hid)) hle⟩
    rw [show s'.view id = ⟨s.tasks.find id, (s'.view id).pending, s.returned id⟩ by
      rw [hview, h4, h5]; rfl]
    exact .idle hle

/-- What `refund` adds to what a task got back. -/
def refundOf (task : Task) (fundingErr : Bool) (id : ℕ) : List ℤ :=
  if task.id = id ∧ task.quota ≠ 0 ∧ fundingErr = false then [task.quota] else []

@[simp] theorem refund_tasks (s : Loop) (t : Task) (fe : Bool) :
    (s.refund t fe).tasks = s.tasks := by
  unfold refund
  split_ifs <;> rfl

@[simp] theorem refund_mem (s : Loop) (t : Task) (fe : Bool) : (s.refund t fe).mem = s.mem := by
  unfold refund
  split_ifs <;> rfl

@[simp] theorem refund_todo (s : Loop) (t : Task) (fe : Bool) : (s.refund t fe).todo = s.todo := by
  unfold refund
  split_ifs <;> rfl

@[simp] theorem refund_fetches (s : Loop) (t : Task) (fe : Bool) :
    (s.refund t fe).fetches = s.fetches := by
  unfold refund
  split_ifs <;> rfl

theorem returned_refund (s : Loop) (t : Task) (fe : Bool) (id : ℕ) :
    (s.refund t fe).returned id = s.returned id ++ refundOf t fe id := by
  by_cases hq : t.quota = 0 <;> rcases fe <;> by_cases hid : t.id = id <;>
    simp [refund, returned, refundOf, refundTaskQuota, filter_append, hq, hid]

theorem refundOf_of_ne (h : t.id ≠ id) : refundOf t fe id = [] := by
  simp [refundOf, h]

theorem refundOf_self (fe : Bool) (h : Sound lossless quota t) (hid : t.id = id) :
    (refundOf t fe id = [] ∨ refundOf t fe id = [quota]) ∧
      (lossless → fe = false → refundOf t fe id = [quota]) := by
  unfold refundOf
  rw [h.amount]
  refine ⟨?_, fun hl hfe => if_pos ⟨hid, h.charged hl, hfe⟩⟩
  split_ifs <;> simp

theorem sound_sweepTask (h : Sound lossless quota t) (cfg : PollConfig) (now : ℤ) :
    Sound lossless quota (sweepTask cfg now t) :=
  h.congr (charge_sweepTask cfg now t) rfl

theorem sweepRefunds_of_sound (h : Sound lossless quota t) (hl : lossless) :
    sweepRefunds t = true := by
  have hq : t.quota ≠ 0 := h.amount.trans_ne (h.charged hl)
  simp [sweepRefunds, h.recent hl, hq]

theorem sweep_polled (cfg : PollConfig) (s : Loop) (t : Task) (now : ℤ) (dbErr fe : Bool)
    (hfe : lossless → fe = false) :
    Polled lossless quota id t s (s.sweep cfg t now dbErr fe) := by
  unfold sweep
  rcases s.tasks.updateWithStatus_cases dbErr (sweepTask cfg now t) t.status with
    ⟨h1, h2⟩ | ⟨-, h, -⟩
  · rcases hu : s.tasks.updateWithStatus dbErr (sweepTask cfg now t) t.status with ⟨tb, _ | _ | _⟩
    · exact .skip rfl rfl (.inl rfl) (by rw [hu] at h1; exact h1) rfl
    · exact .skip rfl rfl (.inl rfl) (by rw [hu] at h1; exact h1) rfl
    · simp [hu] at h2
  · rw [h]
    simp only []
    split_ifs with hr
    · refine .write (sweepTask cfg now t) (refund_todo _ _ _) (refund_fetches _ _ _)
        (.inl (refund_mem _ _ _)) rfl (refund_tasks _ _ _) (returned_refund _ _ _ _)
        (fun hne => refundOf_of_ne hne) fun hid hs _ => ?_
      have hs' := sound_sweepTask hs cfg now
      obtain ⟨h3, h4⟩ := refundOf_self fe hs' hid
      exact ⟨hs', h3.imp_right fun h => ⟨h, rfl⟩, fun hl _ => h4 hl (hfe hl)⟩
    · refine .write (sweepTask cfg now t) (l := []) rfl rfl (.inl rfl) rfl rfl
        (append_nil _).symm (fun _ => rfl) fun hid hs _ => ?_
      exact ⟨sound_sweepTask hs cfg now, .inl rfl,
        fun hl _ => absurd (sweepRefunds_of_sound hs hl) hr⟩

@[simp] theorem bill_tasks (s : Loop) (t : Task) (d : VideoDecision) (q : Option ℤ) (fe : Bool) :
    (s.bill t d q fe).tasks = s.tasks := by
  unfold bill
  split_ifs <;> simp

@[simp] theorem bill_todo (s : Loop) (t : Task) (d : VideoDecision) (q : Option ℤ) (fe : Bool) :
    (s.bill t d q fe).todo = s.todo := by
  unfold bill
  split_ifs <;> simp

@[simp] theorem bill_fetches (s : Loop) (t : Task) (d : VideoDecision) (q : Option ℤ)
    (fe : Bool) : (s.bill t d q fe).fetches = s.fetches := by
  unfold bill
  split_ifs <;> simp

/-- What the billing of a poll adds to what a task got back. -/
def billOf (t : Task) (d : VideoDecision) (fe : Bool) (id : ℕ) : List ℤ :=
  if d.shouldRefund then refundOf t fe id else []

theorem returned_bill (s : Loop) (t : Task) (d : VideoDecision) (q : Option ℤ) (fe : Bool)
    (id : ℕ) : (s.bill t d q fe).returned id = s.returned id ++ billOf t d fe id := by
  simp only [bill, billOf]
  split_ifs
  · exact returned_refund _ t fe id
  · exact returned_refund s t fe id
  · exact (append_nil _).symm
  · exact (append_nil _).symm

theorem memStep_bill (hm : s.mem.find t.id = some t) (hr : t'.route = t.route)
    (tb : TaskTable) (d : VideoDecision) (q : Option ℤ) (fe : Bool) :
    MemStep s.mem ({ s with mem := s.mem.put t', tasks := tb }.bill t' d q fe).mem t := by
  refine .inr ⟨hm, ?_⟩
  by_cases hd : d.shouldSettle = true
  · refine ⟨{ t' with quota := q.getD t'.quota }, hr, ?_⟩
    rw [← Table.put_put s.mem
      (show ({ t' with quota := q.getD t'.quota } : Task).id = t'.id from rfl)]
    simp only [bill, hd, if_true]
    split_ifs <;> simp
  · refine ⟨t', hr, ?_⟩
    simp only [bill, hd, Bool.false_eq_true, if_false]
    split_ifs <;> simp

theorem mem_of_taskM {p u : String} (h : mem.taskM p u = some t) :
    t ∈ mem.rows ∧ t.platform = p ∧ t.getUpstreamTaskID = u ∧ t.getUpstreamTaskID ≠ "" := by
  have h1 := mem_of_find?_eq_some h
  have h2 := find?_some h
  simp only [ofPlatform, mem_reverse, mem_filter, Bool.and_eq_true,
    decide_eq_true_eq] at h1 h2
  exact ⟨h1.1, h1.2.1, h2, h1.2.2⟩

theorem videoAnswer_failure
    (h : videoAnswer cfg now t resp = (t', some d)) (hf : t'.status = .failure) :
    d.shouldRefund = decide (t.quota ≠ 0) := by
  obtain ⟨_, ti, -, -, h⟩ := applied_of_videoAnswer h
  unfold applyTaskResult at h
  split at h <;> simp only [Prod.mk.injEq, Option.some.injEq, reduceCtorEq, and_false] at h <;>
    obtain ⟨rfl, rfl⟩ := h <;> simp at hf ⊢

theorem unfinished_of_isDone (h : t.status.isDone = true) : unfinished t = false := by
  simp [unfinished, h]

theorem billOf_of_ne (h : t.id ≠ id) : billOf t d fe id = [] := by
  rw [billOf, refundOf_of_ne h, ite_self]

theorem billOf_of_not_guarded
    (hv : videoAnswer cfg now t resp = (t', some d)) (hw : writeKind t.snapshot t' ≠ .guarded)
    (hu : unfinished t = true) (fe : Bool) : billOf t' d fe id = [] := by
  have hnd := not_isDone_of_writeKind (not_isDone_of_unfinished hu) hw
  rw [billOf, flag_false (videoAnswer_decision hv).1 rfl hnd, if_neg (by decide)]

theorem billOf_self (hv : videoAnswer cfg now t resp = (t', some d)) (hfe : lossless → fe = false)
    (hs : Sound lossless quota t) (hs' : Sound lossless quota t') (hid : t'.id = id) :
    (billOf t' d fe id = [] ∨ billOf t' d fe id = [quota] ∧ unfinished t' = false) ∧
      (lossless → t'.status = .failure → billOf t' d fe id = [quota]) := by
  obtain ⟨h1, h2⟩ := refundOf_self fe hs' hid
  refine ⟨?_, fun hl hf => ?_⟩
  · by_cases hd : d.shouldRefund = true
    · rw [billOf, if_pos hd]
      exact h1.imp_right fun h =>
        ⟨h, unfinished_of_isDone (by rw [(videoAnswer_decision hv).1 hd]; rfl)⟩
    · exact .inl (if_neg hd)
  · rw [billOf, if_pos, h2 hl (hfe hl)]
    rw [videoAnswer_failure hv hf, decide_eq_true_eq, hs.amount]
    exact hs.charged hl

theorem video_polled {p u : String} (h : s.mem.taskM p u = some t) (now : ℤ)
    (resp : Option Response) (q : Option ℤ) (dbErr fe : Bool) (hfe : lossless → fe = false) :
    Polled lossless quota id t s (s.video cfg p u now resp q dbErr fe) := by
  have hm : s.mem.find t.id = some t := Table.find_of_mem (mem_of_taskM h).1
  unfold video
  rw [h]
  cases resp with
  | none => exact .skip rfl rfl (.inl rfl) rfl rfl
  | some resp =>
    have hc := charge_videoAnswer cfg now t resp
    have hr := route_videoAnswer cfg now t resp
    rcases hv : videoAnswer cfg now t resp with ⟨t', _ | d⟩
    · rw [hv] at hr
      simp only [hv]
      exact .skip rfl rfl (.inr ⟨hm, t', hr, rfl⟩) rfl rfl
    · rw [hv] at hc hr
      have hid : t'.id = t.id := congrArg Route.id hr
      have hother : t.id ≠ id → billOf t' d fe id = [] :=
        fun hne => billOf_of_ne (by rwa [hid])
      have hkeep : ∀ tb : TaskTable, tb = s.tasks → writeKind t.snapshot t' ≠ .guarded →
          Polled lossless quota id t s
            ({ s with mem := s.mem.put t', tasks := tb }.bill t' d q fe) := fun tb htb hw =>
        .keep (bill_todo _ _ _ _ _) (bill_fetches _ _ _ _ _) (memStep_bill hm hr tb d q fe)
          ((bill_tasks _ _ _ _ _).trans htb) (returned_bill _ _ _ _ _ _) hother
          fun _ hu => billOf_of_not_guarded hv hw hu fe
      have hwrite : Polled lossless quota id t s
          ({ s with mem := s.mem.put t', tasks := s.tasks.put t' }.bill t' d q fe) :=
        .write t' (bill_todo _ _ _ _ _) (bill_fetches _ _ _ _ _) (memStep_bill hm hr _ d q fe) hid
          (bill_tasks _ _ _ _ _) (returned_bill _ _ _ _ _ _) hother fun heq hs _ =>
          ⟨hs.congr hc hr, billOf_self hv hfe hs (hs.congr hc hr) (hid.trans heq)⟩
      simp only [hv]
      rcases s.tasks.updateWithStatus_cases dbErr t' t.status with ⟨h1, h2⟩ | ⟨-, hw, -⟩
      · split
        · rw [if_neg h2]
          exact .skip rfl rfl (.inr ⟨hm, t', hr, rfl⟩) h1 rfl
        · rename_i hk
          exact hkeep _ h1 (by rw [hk]; decide)
        · rename_i hk
          exact hkeep _ rfl (by rw [hk]; decide)
      · rw [hw]
        split
        · exact hwrite
        · exact hwrite
        · rename_i hk
          exact hkeep _ rfl (by rw [hk]; decide)

/-- An item does not put a task's submission before the legacy cutoff. -/
def keepsRecent (item : SunoDataResponse) : Bool :=
  item.submitTime ≤ 0 || legacyTaskCutoff ≤ item.submitTime

theorem sound_applySunoItem (h : Sound lossless quota t)
    (hi : lossless → keepsRecent item = true) : Sound lossless quota (applySunoItem t item) where
  amount := h.amount
  charged := h.charged
  recent hl := by
    have h1 := h.recent hl
    have h2 := hi hl
    simp only [isLegacy, keepsRecent, applySunoItem, Bool.and_eq_false_iff, Bool.or_eq_true,
      decide_eq_true_eq, decide_eq_false_iff_not] at h1 h2 ⊢
    split_ifs <;> omega
  named := h.named

theorem unfinished_of_sunoFails
    (h : sunoFails t item = true) : unfinished (applySunoItem t item) = false := by
  simp [unfinished, applySunoItem, h]

theorem suno_polled (h : s.mem.taskM taskPlatformSuno item.taskID = some t) (dbErr fe : Bool)
    (hfe : lossless → fe = false) (hi : lossless → keepsRecent item = true)
    (hsave : t.id = id → taskNeedsUpdate cfg t item = true → sunoFails t item = true →
      dbErr = false) :
    Polled lossless quota id t s (s.suno cfg item dbErr fe) := by
  have hm : s.mem.find t.id = some t := Table.find_of_mem (mem_of_taskM h).1
  unfold suno
  rw [h]
  simp only []
  split_ifs with hn hf
  · rcases dbErr
    · refine .write (applySunoItem t item) (refund_todo _ _ _) (refund_fetches _ _ _)
        (.inr ⟨hm, applySunoItem t item, rfl, by rw [refund_mem]⟩) rfl
        (by simp [update]) (returned_refund s _ fe id) (fun hne => refundOf_of_ne hne)
        fun hid hs _ => ?_
      have hs' := sound_applySunoItem hs hi
      obtain ⟨h1, h2⟩ := refundOf_self fe hs' hid
      exact ⟨hs', h1.imp_right fun h => ⟨h, unfinished_of_sunoFails hf⟩,
        fun hl _ => h2 hl (hfe hl)⟩
    · exact .keep (refund_todo _ _ _) (refund_fetches _ _ _)
        (.inr ⟨hm, applySunoItem t item, rfl, by rw [refund_mem]⟩)
        (by simp [update]) (returned_refund s _ fe id) (fun hne => refundOf_of_ne hne)
        fun hid _ => absurd (hsave hid hn hf) (by decide)
  · rcases dbErr
    · refine .write (applySunoItem t item) (l := []) rfl rfl
        (.inr ⟨hm, applySunoItem t item, rfl, rfl⟩) rfl (by simp [update])
        (append_nil _).symm (fun _ => rfl) fun _ hs _ =>
        ⟨sound_applySunoItem hs hi, .inl rfl, fun _ hst => ?_⟩
      refine absurd ?_ hf
      have : sunoStatus t item = .failure := hst
      simp [sunoFails, this]
    · exact .skip rfl rfl (.inr ⟨hm, applySunoItem t item, rfl, rfl⟩)
        (by simp [update]) rfl
  · exact .skip rfl rfl (.inl rfl) rfl rfl

end Loop

end AggreApi
