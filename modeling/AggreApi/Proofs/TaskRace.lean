import AggreApi.Lib.Procs
import AggreApi.TaskRace

/-!
# A task is billed by the run that finished it

A poller only ever overwrites a row whose status is the unfinished one it read, so a finished row
can be moved by a fetch alone, and as long as none moves one back (`Race.resurrects`) the row was
finished by one run, and only that run bills.
-/

namespace AggreApi

open List Entry Table

variable {tb : TaskTable} {t r t' : Task} {now : ℤ} {resp : Response} {k : ℕ} {job : Job}
  {phase : Phase} {log : List Entry} {q : Bool}

namespace TaskTable

theorem mem_getTimedOutUnfinishedTasks {cutoff : ℤ} {limit : ℕ}
    (h : t ∈ tb.getTimedOutUnfinishedTasks cutoff limit) :
    t ∈ tb.rows ∧ unfinished t = true ∧ t.submitTime < cutoff := by
  have h := mem_of_mem_take h
  rw [mem_insertionSort] at h
  simpa [and_assoc] using h

theorem mem_getAllUnFinishSyncTasks {limit : ℕ}
    (h : t ∈ tb.getAllUnFinishSyncTasks limit) : t ∈ tb.rows ∧ unfinished t = true := by
  have h := mem_of_mem_take h
  rw [mem_insertionSort] at h
  simpa using h

theorem not_isDone_of_unfinished (h : unfinished t = true) : t.status.isDone = false := by
  simp only [unfinished, Bool.and_eq_true, Bool.not_eq_true'] at h
  exact h.2

theorem updateWithStatus_cases (tb : TaskTable) (dbErr : Bool) (t : Task) (s : TaskStatus) :
    (tb.updateWithStatus dbErr t s).1 = tb ∧ (tb.updateWithStatus dbErr t s).2 ≠ some true ∨
      dbErr = false ∧ tb.updateWithStatus dbErr t s = (tb.put t, some true) ∧
        ∃ r, tb.find t.id = some r ∧ r.status = s := by
  unfold updateWithStatus
  split_ifs with he
  · exact .inl ⟨rfl, by simp⟩
  · rcases hw : (tb.cas t fun row => row.status = s).2
    · exact .inl ⟨by simp [cas_lost hw], by simp [hw]⟩
    · obtain ⟨h1, r, hr, hs⟩ := cas_won hw
      exact .inr ⟨by simpa using he, by simp [h1, hw], r, hr, by simpa using hs⟩

theorem updateWithStatus_won (hr : tb.find t.id = some r) :
    tb.updateWithStatus false t r.status = (tb.put t, some true) := by
  simp [updateWithStatus, cas, matches?, hr]

end TaskTable

/-- The columns no poll changes. -/
def Task.charge (t : Task) : ℕ × ℤ × ℤ := (t.id, t.quota, t.submitTime)

theorem isLegacy_congr (h : t'.charge = t.charge) : isLegacy t' = isLegacy t := by
  have : t'.submitTime = t.submitTime := congrArg (fun c => c.2.2) h
  simp [isLegacy, this]

variable (cfg : PollConfig)

theorem charge_sweepTask (now : ℤ) (t : Task) :
    (sweepTask cfg now t).charge = t.charge := rfl

theorem charge_applyRealtime (t : Task) (ti : TaskInfo) :
    (applyRealtime cfg t ti).charge = t.charge := rfl

theorem charge_applyTaskResult (now : ℤ) (t : Task) (ti : TaskInfo) :
    (applyTaskResult cfg now t ti).1.charge = t.charge := by
  unfold applyTaskResult
  split <;> rfl

theorem charge_videoAnswer (now : ℤ) (t : Task) (resp : Response) :
    (videoAnswer cfg now t resp).1.charge = t.charge := by
  unfold videoAnswer
  split
  · rfl
  · split
    · rfl
    · rw [charge_applyTaskResult]
      rfl

theorem applied_of_videoAnswer {cfg : PollConfig}
    {d : VideoDecision} (h : videoAnswer cfg now t resp = (t', some d)) :
    ∃ ti₀ ti, parseVideoResponse resp = some ti₀ ∧ resolveEmptyStatus resp ti₀ = some ti ∧
      applyTaskResult cfg now { t with data := resp.redacted } ti = (t', some d) := by
  unfold videoAnswer at h
  split at h
  · simp at h
  · rename_i ti₀ hparse
    simp only at h
    split at h
    · simp at h
    · rename_i ti hresolve
      exact ⟨ti₀, ti, hparse, hresolve, h⟩

theorem videoAnswer_decision {cfg : PollConfig}
    {d : VideoDecision} (h : videoAnswer cfg now t resp = (t', some d)) :
    (d.shouldRefund = true → t'.status = .failure) ∧
      (d.shouldSettle = true → t'.status = .success) := by
  obtain ⟨_, ti, -, -, h⟩ := applied_of_videoAnswer h
  unfold applyTaskResult at h
  split at h <;> simp only [Prod.mk.injEq, Option.some.injEq, reduceCtorEq, and_false] at h <;>
    obtain ⟨rfl, rfl⟩ := h <;> simp

theorem not_isDone_of_writeKind (ht : t.status.isDone = false)
    (hw : writeKind t.snapshot t' ≠ .guarded) : t'.status.isDone = false := by
  by_contra hd
  simp only [Bool.not_eq_false] at hd
  refine hw (if_pos ?_)
  simp only [hd, Bool.true_and, decide_eq_true_eq]
  intro h
  rw [← h] at hd
  exact absurd (ht.symm.trans hd) (by decide)

theorem flag_false {b : Bool} {st : TaskStatus} (h : b = true → t.status = st)
    (hst : st.isDone = true) (ht : t.status.isDone = false) : b = false := by
  by_contra hb
  rw [h (by simpa using hb), hst] at ht
  cases ht

namespace Race

variable {cfg : PollConfig} {tasks : TaskTable} {s : Race} {bad : Prop}

/-- Pollers hold rows that were not finished when they read them. -/
def Fresh (s : Race) : Prop :=
  ∀ (k : ℕ) (job : Job) (t : Task), s.workers[k]? = some ⟨job, .read t⟩ → job ≠ .fetch →
    t.status.isDone = false

/-- The billing a run is due after it moved `t` to `t'`. -/
structure Due (job : Job) (t t' : Task) (shouldRefund shouldSettle : Bool) : Prop where
  poller : job ≠ .fetch
  refund : shouldRefund = true → t'.status = .failure ∧ (job = .sweep → isLegacy t = false)
  settle : shouldSettle = true → t'.status = .success

/-- What a run that moved `t` to `t'` goes on to. -/
def After (job : Job) (t t' : Task) (phase : Phase) : Prop :=
  phase = .over ∨ ∃ r q, phase = .bill t' r q ∧ Due job t t' r q

def Idle (phase : Phase) : Prop := phase = .over ∨ ∃ t, phase = .bill t false false

/-- The effects an event can have. -/
inductive Effect (s : Race) (bad : Prop) : Race → Prop
  | none : Effect s bad s
  | start (job : Job) (rows : List Task)
      (h : ∀ t ∈ rows, s.tasks.find t.id = some t ∧ (job ≠ .fetch → t.status.isDone = false)) :
      Effect s bad (s.start job rows)
  | drop (k : ℕ) (job : Job) (t : Task) (phase : Phase)
      (hk : s.workers[k]? = some ⟨job, .read t⟩) (hp : Idle phase) :
      Effect s bad (s.goOn k job phase)
  | move (k : ℕ) (job : Job) (t t' r : Task) (phase : Phase)
      (hk : s.workers[k]? = some ⟨job, .read t⟩) (hc : t'.charge = t.charge)
      (hr : s.tasks.find t.id = some r) (hs : r.status = t.status)
      (hp : After job t t' phase)
      (hb : t.status.isDone = true → t'.status.isDone = true ∨ bad) :
      Effect s bad
        { tasks := s.tasks.put t'
          workers := s.workers.set k ⟨job, phase⟩
          log := s.log ++ [.moved k job t.id t.status t'.status] }
  | bill (k : ℕ) (job : Job) (t : Task) (shouldRefund shouldSettle fundingErr : Bool)
      (hk : s.workers[k]? = some ⟨job, .bill t shouldRefund shouldSettle⟩) :
      Effect s bad (s.bill k job t shouldRefund shouldSettle fundingErr)

theorem write_effect {dbErr : Bool}
    (hk : s.workers[k]? = some ⟨job, .read t⟩) (hc : t'.charge = t.charge)
    (hp : After job t t' phase)
    (hb : dbErr = false → (s.tasks.find t.id).any (·.status = t.status) = true →
      t.status.isDone = true → t'.status.isDone = true ∨ bad) :
    Effect s bad (s.write k job dbErr t.status t' phase) := by
  have hid : t'.id = t.id := congrArg Prod.fst hc
  unfold write
  rcases s.tasks.updateWithStatus_cases dbErr t' t.status with ⟨h1, h2⟩ | ⟨he, h, r, hr, hs⟩
  · rcases hu : s.tasks.updateWithStatus dbErr t' t.status with ⟨tb, _ | _ | _⟩
    · obtain rfl : tb = s.tasks := by rw [hu] at h1; exact h1
      exact .drop k job t .over hk (.inl rfl)
    · obtain rfl : tb = s.tasks := by rw [hu] at h1; exact h1
      exact .drop k job t .over hk (.inl rfl)
    · simp [hu] at h2
  · rw [h]
    rw [hid] at hr
    simp only [hid]
    exact .move k job t t' r phase hk hc hr hs hp (hb he (by simp [hr, hs]))

theorem write_goOn (s : Race) (k : ℕ) (job : Job) (dbErr : Bool) (st : TaskStatus) (t : Task)
    (phase : Phase) (h : (s.tasks.updateWithStatus dbErr t st).2 = some true) :
    (s.write k job dbErr st t .over).goOn k job phase = s.write k job dbErr st t phase := by
  unfold write goOn
  rcases hu : s.tasks.updateWithStatus dbErr t st with ⟨tb, _ | _ | _⟩ <;> simp [hu] at h ⊢

theorem write_lost_goOn (s : Race) (k : ℕ) (job : Job) (dbErr : Bool) (st : TaskStatus) (t : Task)
    (phase : Phase) (h : (s.tasks.updateWithStatus dbErr t st).2 ≠ some true)
    (h' : (s.tasks.updateWithStatus dbErr t st).1 = s.tasks) :
    (s.write k job dbErr st t .over).goOn k job phase = s.goOn k job phase := by
  unfold write goOn
  rcases hu : s.tasks.updateWithStatus dbErr t st with ⟨tb, _ | _ | _⟩ <;>
    simp [hu] at h h' ⊢ <;> exact h'

theorem videoWrite_effect {dbErr : Bool}
    (hk : s.workers[k]? = some ⟨.video, .read t⟩) (ht : t.status.isDone = false) :
    Effect s bad (s.videoWrite cfg k t now resp dbErr) := by
  have hb : ∀ {t' : Task}, t.status.isDone = true → t'.status.isDone = true ∨ bad :=
    fun h => absurd (ht.symm.trans h) (by decide)
  have hc := charge_videoAnswer cfg now t resp
  unfold videoWrite
  rcases hv : videoAnswer cfg now t resp with ⟨t', _ | d⟩
  · exact .drop k .video t .over hk (.inl rfl)
  · rw [hv] at hc
    obtain ⟨hr, hs⟩ := videoAnswer_decision hv
    simp only []
    split
    · exact write_effect hk hc (.inr ⟨_, _, rfl, by decide, fun h => ⟨hr h, by simp⟩, hs⟩)
        fun _ _ => hb
    all_goals
      rename_i hw
      have hnd := not_isDone_of_writeKind ht (by rw [hw]; decide)
      have hidle : Idle (.bill t' d.shouldRefund d.shouldSettle) := by
        refine .inr ⟨t', ?_⟩
        rw [flag_false hr rfl hnd, flag_false hs rfl hnd]
    · rcases s.tasks.updateWithStatus_cases dbErr t' t.status with ⟨h1, h2⟩ | ⟨-, h, -⟩
      · rw [write_lost_goOn _ _ _ _ _ _ _ h2 h1]
        exact .drop k .video t _ hk hidle
      · rw [write_goOn _ _ _ _ _ _ _ (by rw [h])]
        exact write_effect hk hc (.inr ⟨_, _, rfl, by decide, fun h => ⟨hr h, by simp⟩, hs⟩)
          fun _ _ => hb
    · exact .drop k .video t _ hk hidle

theorem step_effect (cfg : PollConfig) (hf : s.Fresh) (e : RaceEvent) :
    Effect s (s.resurrects e = true) (step cfg s e) := by
  cases e with
  | sweepRead =>
    simp only [step]
    split_ifs
    · exact .none
    · refine .start .sweep _ fun t ht => ?_
      obtain ⟨h1, h2, -⟩ := TaskTable.mem_getTimedOutUnfinishedTasks ht
      exact ⟨find_of_mem h1, fun _ => TaskTable.not_isDone_of_unfinished h2⟩
  | pollRead =>
    refine .start .video _ fun t ht => ?_
    obtain ⟨h1, h2⟩ := TaskTable.mem_getAllUnFinishSyncTasks ht
    exact ⟨find_of_mem h1, fun _ => TaskTable.not_isDone_of_unfinished h2⟩
  | fetchRead =>
    refine .start .fetch _ fun t ht => ⟨?_, fun h => absurd rfl h⟩
    rw [Option.mem_toList] at ht
    exact key_of_find ht ▸ ht
  | sweepWrite _ now =>
    simp only [step]
    split
    · rename_i t hk
      refine write_effect hk (charge_sweepTask cfg now t) ?_ fun _ _ _ => .inl rfl
      split_ifs with hr
      · refine .inr ⟨true, false, rfl, by decide, fun _ => ⟨rfl, fun _ => ?_⟩, by simp⟩
        simp only [sweepRefunds, Bool.and_eq_true, Bool.not_eq_true'] at hr
        exact hr.1
      · exact .inl rfl
    · exact .none
  | videoWrite k =>
    simp only [step]
    split
    · rename_i t hk
      exact videoWrite_effect hk (hf k .video t hk (by decide))
    · exact .none
  | fetchWrite k ti =>
    simp only [step]
    split
    · rename_i t hk
      unfold fetchWrite
      simp only []
      split_ifs
      · refine write_effect hk (charge_applyRealtime cfg t ti) (.inl rfl) fun he hr hd => ?_
        by_cases h : (applyRealtime cfg t ti).status.isDone = true
        · exact .inl h
        · have hti : ti.status ≠ .empty := by
            intro h0
            simp [applyRealtime, h0, hd] at h
          have hn : ti.status.isDone = false := by simpa [applyRealtime, hti] using h
          exact .inr (by simp [resurrects, hk, he, hr, hd, hti, hn])
      · exact .drop k .fetch t .over hk (.inl rfl)
    · exact .none
  | bill k fundingErr =>
    simp only [step]
    split
    · rename_i job t r q hk
      exact .bill k job t r q fundingErr hk
    · exact .none

def owes (id : ℕ) (w : Worker) : Bool :=
  match w.phase with
  | .bill t r q => t.id = id && (r || q)
  | _ => false

/-- The table still holds the charge a run has in its copy of the task. -/
def Charged (tasks : TaskTable) (t : Task) : Prop :=
  (tasks.find t.id).map Task.charge = some t.charge

/-- What a logged billing rests on. -/
def Explained (tasks : TaskTable) (log : List Entry) : Entry → Prop
  | .moved _ _ _ _ _ => True
  | .settle k job id =>
    ∃ fs : TaskStatus, fs.isDone = false ∧ .moved k job id fs .success ∈ log
  | .refund k job id amount =>
    ∃ (fs : TaskStatus) (t : Task), fs.isDone = false ∧ .moved k job id fs .failure ∈ log ∧
      tasks.find id = some t ∧ (job = .sweep → isLegacy t = false) ∧
      (amount = 0 ∨ amount = t.quota)

/-- A billing still to be done rests on the same. -/
structure Owed (tasks : TaskTable) (log : List Entry) (k : ℕ) (job : Job) (t : Task)
    (shouldRefund shouldSettle : Bool) : Prop where
  moved : ∃ fs : TaskStatus, fs.isDone = false ∧ .moved k job t.id fs t.status ∈ log
  charged : Charged tasks t
  refund : shouldRefund = true → t.status = .failure ∧ (job = .sweep → isLegacy t = false)
  settle : shouldSettle = true → t.status = .success

/-- How often a task is billed, in the log or by a run that has it to do. -/
def billings (s : Race) (id : ℕ) : ℕ := s.log.countP (bills id) + s.workers.countP (owes id)

structure Inv (tasks : TaskTable) (s : Race) : Prop where
  fresh : s.Fresh
  rows : ∀ id, (s.tasks.find id).map Task.charge = (tasks.find id).map Task.charge
  read : ∀ (k : ℕ) (job : Job) (t : Task), s.workers[k]? = some ⟨job, .read t⟩ → Charged tasks t
  owed : ∀ (k : ℕ) (job : Job) (t : Task) (r q : Bool), s.workers[k]? = some ⟨job, .bill t r q⟩ →
    (r || q) = true → Owed tasks s.log k job t r q
  explained : ∀ e ∈ s.log, Explained tasks s.log e
  once : ∀ (id : ℕ) (row : Task), s.tasks.find id = some row →
    s.billings id ≤ if row.status.isDone then 1 else 0
  finished : ∀ (id : ℕ) (row : Task), s.tasks.find id = some row →
    s.log.countP (finishes id) ≤ if row.status.isDone then 1 else 0

theorem inv_init (tasks : TaskTable) : Inv tasks (init tasks) where
  fresh := by simp [Fresh, init]
  rows _ := rfl
  read := by simp [init]
  owed := by simp [init]
  explained := by simp [init]
  once := by simp [init, billings]
  finished := by simp [init]

theorem Explained.mono {log' : List Entry} (hl : log ⊆ log') {e : Entry}
    (h : Explained tasks log e) : Explained tasks log' e := by
  cases e with
  | moved => trivial
  | settle =>
    obtain ⟨fs, h1, h2⟩ := h
    exact ⟨fs, h1, hl h2⟩
  | refund =>
    obtain ⟨fs, t, h1, h2, h3⟩ := h
    exact ⟨fs, t, h1, hl h2, h3⟩

theorem Owed.mono {log' : List Entry} (hl : log ⊆ log')
    {r : Bool} (h : Owed tasks log k job t r q) : Owed tasks log' k job t r q := by
  obtain ⟨⟨fs, h1, h2⟩, h3, h4, h5⟩ := h
  exact ⟨⟨fs, h1, hl h2⟩, h3, h4, h5⟩

theorem inv_start (hI : Inv tasks s) {rows : List Task}
    (h : ∀ t ∈ rows, s.tasks.find t.id = some t ∧ (job ≠ .fetch → t.status.isDone = false)) :
    Inv tasks (s.start job rows) where
  fresh k job' t hk hj := by
    rcases getElem?_append_cases hk with hk | hk
    · exact hI.fresh k job' t hk hj
    · simp only [mem_map, Worker.mk.injEq, Phase.read.injEq] at hk
      obtain ⟨t, ht, rfl, rfl⟩ := hk
      exact (h t ht).2 hj
  rows := hI.rows
  read k job' t hk := by
    rcases getElem?_append_cases hk with hk | hk
    · exact hI.read k job' t hk
    · simp only [mem_map, Worker.mk.injEq, Phase.read.injEq] at hk
      obtain ⟨t, ht, rfl, rfl⟩ := hk
      have := hI.rows t.id
      rw [(h t ht).1] at this
      exact this.symm
  owed k job' t r q hk := by
    rcases getElem?_append_cases hk with hk | hk
    · exact hI.owed k job' t r q hk
    · simp at hk
  explained := hI.explained
  once id row hrow := by
    have hz : (rows.map fun t => (⟨job, .read t⟩ : Worker)).countP (owes id) = 0 := by
      simp [countP_eq_zero, owes]
    have := hI.once id row hrow
    simp only [billings, start, countP_append, hz] at this ⊢
    omega
  finished := hI.finished

@[simp] theorem owes_read (id : ℕ) (job : Job) (t : Task) : owes id ⟨job, .read t⟩ = false := rfl

@[simp] theorem owes_over (id : ℕ) (job : Job) : owes id ⟨job, .over⟩ = false := rfl

theorem owes_idle {id : ℕ} (h : Idle phase) : owes id ⟨job, phase⟩ = false := by
  rcases h with rfl | ⟨t, rfl⟩ <;> simp [owes]

theorem inv_drop (hI : Inv tasks s) (hk : s.workers[k]? = some ⟨job, .read t⟩) (hp : Idle phase) :
    Inv tasks (s.goOn k job phase) where
  fresh j job' t' hj := by
    rcases getElem?_set_cases hj with ⟨-, h⟩ | ⟨-, h⟩
    · rcases hp with rfl | ⟨t, rfl⟩ <;> simp at h
    · exact hI.fresh j job' t' h
  rows := hI.rows
  read j job' t' hj := by
    rcases getElem?_set_cases hj with ⟨-, h⟩ | ⟨-, h⟩
    · rcases hp with rfl | ⟨t, rfl⟩ <;> simp at h
    · exact hI.read j job' t' h
  owed j job' t' r q hj hrq := by
    rcases getElem?_set_cases hj with ⟨-, h⟩ | ⟨-, h⟩
    · rcases hp with rfl | ⟨t, rfl⟩ <;> simp_all
    · exact hI.owed j job' t' r q h hrq
  explained := hI.explained
  once id row hrow := by
    have hc := countP_set_add ⟨job, phase⟩ (owes id) hk
    have := hI.once id row hrow
    simp only [owes_idle hp, owes_read, Bool.false_eq_true, if_false, add_zero] at hc
    simp only [billings, goOn, hc] at this ⊢
    exact this
  finished := hI.finished

theorem owes_after {id : ℕ} (h : After job t t' phase) (ho : owes id ⟨job, phase⟩ = true) :
    t'.id = id ∧ t'.status.isDone = true ∧ job ≠ .fetch := by
  rcases h with rfl | ⟨r, q, rfl, hd⟩
  · simp at ho
  · simp only [owes, Bool.and_eq_true, decide_eq_true_eq, Bool.or_eq_true] at ho
    refine ⟨ho.1, ?_, hd.poller⟩
    rcases ho.2 with hr | hq
    · rw [(hd.refund hr).1]; rfl
    · rw [hd.settle hq]; rfl

theorem find_move (hid : t'.id = t.id) (hr : s.tasks.find t.id = some r) (id : ℕ) :
    (s.tasks.put t').find id = if id = t.id then some t' else s.tasks.find id := by
  split_ifs with h
  · rw [h, ← hid]
    exact find_put_self (hid.symm ▸ hr)
  · exact find_put_of_ne _ (by rwa [hid])

section
variable (hI : Inv tasks s) (hr : s.tasks.find t.id = some r) (hs : r.status = t.status)
  (hb : t.status.isDone = true → t'.status.isDone = true)
include hI hr hs hb

theorem once_move (hk : s.workers[k]? = some ⟨job, .read t⟩) (hid : t'.id = t.id)
    (hp : After job t t' phase) {id : ℕ} {row : Task}
    (hrow : (s.tasks.put t').find id = some row) :
    (s.log ++ [moved k job t.id t.status t'.status]).countP (bills id) +
      (s.workers.set k ⟨job, phase⟩).countP (owes id) ≤ if row.status.isDone then 1 else 0 := by
  have hcount := countP_set_add ⟨job, phase⟩ (owes id) hk
  simp only [owes_read, Bool.false_eq_true, if_false, add_zero] at hcount
  simp only [countP_append, hcount, countP_singleton, bills,
    Bool.false_eq_true, if_false, add_zero]
  rw [find_move hid hr] at hrow
  split_ifs at hrow with h
  · subst h
    cases hrow
    have hold := hI.once t.id r hr
    rw [hs] at hold
    simp only [billings] at hold
    by_cases ht : t.status.isDone = true
    · have ho : owes t.id ⟨job, phase⟩ = false := by
        by_contra ho
        rw [Bool.not_eq_false] at ho
        exact absurd ht (by simp [hI.fresh k job t hk (owes_after hp ho).2.2])
      simp only [ho, ht, hb ht, Bool.false_eq_true, if_true, if_false, add_zero] at hold ⊢
      exact hold
    · rw [if_neg ht] at hold
      by_cases ho : owes t.id ⟨job, phase⟩ = true
      · rw [if_pos ho, if_pos (owes_after hp ho).2.1]
        omega
      · rw [if_neg ho]
        omega
  · have hold := hI.once id row hrow
    have ho : owes id ⟨job, phase⟩ = false := by
      by_contra ho
      exact h ((owes_after hp (by simpa using ho)).1.symm.trans hid)
    simp only [billings] at hold
    simp only [ho, Bool.false_eq_true, if_false, add_zero]
    exact hold

theorem finished_move (hid : t'.id = t.id) {id : ℕ} {row : Task}
    (hrow : (s.tasks.put t').find id = some row) :
    (s.log ++ [moved k job t.id t.status t'.status]).countP (finishes id) ≤
      if row.status.isDone then 1 else 0 := by
  simp only [countP_append, countP_singleton, finishes]
  rw [find_move hid hr] at hrow
  split_ifs at hrow with h
  · subst h
    cases hrow
    have hold := hI.finished t.id r hr
    rw [hs] at hold
    by_cases ht : t.status.isDone = true
    · simpa [ht, hb ht] using hold
    · rw [if_neg ht, Nat.le_zero] at hold
      simp [hold, ht]
  · have hold := hI.finished id row hrow
    have hne : decide (t.id = id) = false := by simpa using fun h' => h h'.symm
    simp only [hne, Bool.false_and, Bool.false_eq_true, if_false, add_zero]
    exact hold

theorem inv_move (hk : s.workers[k]? = some ⟨job, .read t⟩) (hc : t'.charge = t.charge)
    (hp : After job t t' phase) :
    Inv tasks
      { tasks := s.tasks.put t'
        workers := s.workers.set k ⟨job, phase⟩
        log := s.log ++ [.moved k job t.id t.status t'.status] } := by
  have hid : t'.id = t.id := congrArg Prod.fst hc
  have hsub : s.log ⊆ s.log ++ [moved k job t.id t.status t'.status] :=
    subset_append_left _ _
  have hch : Charged tasks t' := by
    have := hI.read k job t hk
    rwa [Charged, ← hc, ← hid] at this
  constructor
  · intro j job' u hj
    rcases getElem?_set_cases hj with ⟨-, h⟩ | ⟨-, h⟩
    · rcases hp with rfl | ⟨_, _, rfl, -⟩ <;> simp at h
    · exact hI.fresh j job' u h
  · intro id
    rw [find_move hid hr]
    split_ifs with h
    · rw [h, ← hid, Option.map_some]
      exact hch.symm
    · exact hI.rows id
  · intro j job' u hj
    rcases getElem?_set_cases hj with ⟨-, h⟩ | ⟨-, h⟩
    · rcases hp with rfl | ⟨_, _, rfl, -⟩ <;> simp at h
    · exact hI.read j job' u h
  · intro j job' u r' q' hj hrq
    rcases getElem?_set_cases hj with ⟨rfl, h⟩ | ⟨-, h⟩
    · rcases hp with rfl | ⟨_, _, rfl, hd⟩
      · simp at h
      · simp only [Worker.mk.injEq, Phase.bill.injEq] at h
        obtain ⟨rfl, rfl, rfl, rfl⟩ := h
        refine ⟨⟨t.status, hI.fresh j job' t hk hd.poller, ?_⟩, hch, fun hr' => ?_, hd.settle⟩
        · rw [hid]
          exact mem_append_right _ (mem_singleton_self _)
        · exact ⟨(hd.refund hr').1, fun hj => isLegacy_congr hc ▸ (hd.refund hr').2 hj⟩
    · exact (hI.owed j job' u r' q' h hrq).mono hsub
  · intro e he
    rcases mem_append.1 he with he | he
    · exact (hI.explained e he).mono hsub
    · rw [mem_singleton.1 he]
      trivial
  · exact fun id row hrow => once_move hI hr hs hb hk hid hp hrow
  · exact fun id row hrow => finished_move hI hr hs hb hid hrow

end

/-- What a run that is due a billing logs when it bills. -/
def billEntries (k : ℕ) (job : Job) (t : Task) (shouldRefund shouldSettle fundingErr : Bool) :
    List Entry :=
  (if shouldSettle then [settle k job t.id] else []) ++
    if shouldRefund then [refund k job t.id (refundTaskQuota t fundingErr)] else []

theorem countP_bills_billEntries {r : Bool} (fundingErr : Bool)
    (id : ℕ) (h : ¬(r = true ∧ q = true)) :
    (billEntries k job t r q fundingErr).countP (bills id) =
      if owes id ⟨job, .bill t r q⟩ then 1 else 0 := by
  rcases r <;> rcases q <;> simp_all [billEntries, bills, owes]

theorem countP_finishes_billEntries (k : ℕ) (job : Job) (t : Task) (r q fundingErr : Bool)
    (id : ℕ) : (billEntries k job t r q fundingErr).countP (finishes id) = 0 := by
  rcases r <;> rcases q <;> simp [billEntries, finishes]

theorem Owed.explained {r : Bool} (h : Owed tasks log k job t r q) (fundingErr : Bool) :
    ∀ e ∈ billEntries k job t r q fundingErr, Explained tasks log e := by
  obtain ⟨fs, hfs, hm⟩ := h.moved
  intro e he
  simp only [billEntries, mem_append, mem_ite_nil_right, mem_singleton] at he
  rcases he with ⟨hq, rfl⟩ | ⟨hr, rfl⟩
  · exact ⟨fs, hfs, h.settle hq ▸ hm⟩
  · obtain ⟨t₀, ht₀, hch⟩ := Option.map_eq_some_iff.1 h.charged
    refine ⟨fs, t₀, hfs, (h.refund hr).1 ▸ hm, ht₀, fun hj => ?_, ?_⟩
    · rw [isLegacy_congr hch]
      exact (h.refund hr).2 hj
    · have hq : t₀.quota = t.quota := congrArg (·.2.1) hch
      rw [refundTaskQuota, hq]
      split_ifs <;> simp

theorem inv_bill (hI : Inv tasks s) {r : Bool}
    (fundingErr : Bool) (hk : s.workers[k]? = some ⟨job, .bill t r q⟩) :
    Inv tasks (s.bill k job t r q fundingErr) := by
  have hlog : (s.bill k job t r q fundingErr).log =
      s.log ++ billEntries k job t r q fundingErr := rfl
  have hsub : s.log ⊆ s.log ++ billEntries k job t r q fundingErr :=
    subset_append_left _ _
  have hone : ¬(r = true ∧ q = true) := by
    rintro ⟨rfl, rfl⟩
    have ho := hI.owed k job t true true hk rfl
    exact absurd ((ho.refund rfl).1.symm.trans (ho.settle rfl)) (by decide)
  constructor
  · intro j job' u hj
    rcases getElem?_set_cases hj with ⟨-, h⟩ | ⟨-, h⟩
    · simp at h
    · exact hI.fresh j job' u h
  · exact hI.rows
  · intro j job' u hj
    rcases getElem?_set_cases hj with ⟨-, h⟩ | ⟨-, h⟩
    · simp at h
    · exact hI.read j job' u h
  · intro j job' u r' q' hj hrq
    rcases getElem?_set_cases hj with ⟨-, h⟩ | ⟨-, h⟩
    · simp at h
    · exact (hI.owed j job' u r' q' h hrq).mono hsub
  · intro e he
    rw [hlog] at he ⊢
    rcases mem_append.1 he with he | he
    · exact (hI.explained e he).mono hsub
    · by_cases hrq : (r || q) = true
      · exact ((hI.owed k job t r q hk hrq).explained fundingErr e he).mono hsub
      · simp only [Bool.or_eq_true, not_or, Bool.not_eq_true] at hrq
        simp [billEntries, hrq] at he
  · intro id row hrow
    have hold := hI.once id row hrow
    have hcount := countP_set_add ⟨job, .over⟩ (owes id) hk
    simp only [owes_over, Bool.false_eq_true, if_false, add_zero] at hcount
    have hw : (s.bill k job t r q fundingErr).workers = s.workers.set k ⟨job, .over⟩ := rfl
    simp only [billings, hlog, hw, countP_append,
      countP_bills_billEntries fundingErr id hone] at hold ⊢
    omega
  · intro id row hrow
    rw [hlog, countP_append, countP_finishes_billEntries, add_zero]
    exact hI.finished id row hrow

theorem inv_effect (hI : Inv tasks s) {s' : Race} (h : Effect s bad s') (hbad : ¬bad) :
    Inv tasks s' := by
  cases h with
  | none => exact hI
  | start _ _ h => exact inv_start hI h
  | drop _ _ _ _ hk hp => exact inv_drop hI hk hp
  | move _ _ _ _ _ _ hk hc hr hs hp hb =>
    exact inv_move hI hr hs (fun hd => (hb hd).resolve_right hbad) hk hc hp
  | bill _ _ _ _ _ fundingErr hk => exact inv_bill hI fundingErr hk

theorem inv_run {es : List RaceEvent}
    (h : Along (step cfg) (fun s e => s.resurrects e = false) (init tasks) es) :
    Inv tasks (run (step cfg) (init tasks) es) :=
  Along.run_inv (I := Inv tasks)
    (fun _ e hI he => inv_effect hI (step_effect cfg hI.fresh e) (by simp [he])) (inv_init tasks) h

theorem Inv.row (hI : Inv tasks s) (ht : t ∈ tasks.rows) : ∃ row, s.tasks.find t.id = some row := by
  have h := hI.rows t.id
  rw [find_of_mem ht, Option.map_some] at h
  exact (Option.map_eq_some_iff.1 h).imp fun _ => And.left

section
variable (hI : Inv tasks s) (ht : t ∈ tasks.rows)
include hI ht

theorem Inv.bills_le : s.log.countP (bills t.id) ≤ 1 := by
  obtain ⟨row, hrow⟩ := hI.row ht
  have := hI.once t.id row hrow
  unfold billings at this
  split_ifs at this <;> omega

theorem Inv.finishes_le : s.log.countP (finishes t.id) ≤ 1 := by
  obtain ⟨row, hrow⟩ := hI.row ht
  have := hI.finished t.id row hrow
  split_ifs at this <;> omega

theorem Inv.refunded_le : s.refunded t.id ≤ max t.quota 0 := by
  have h := sum_map_of_countP_le_one (f := refundOf t.id) (q := t.quota) (hI.bills_le ht)
    (fun e _ hb => by cases e <;> simp_all [bills, refundOf]) fun e he => by
      cases e with
      | refund _ _ id =>
        obtain ⟨fs, t', -, -, ht', -, ha⟩ := hI.explained _ he
        by_cases hid : id = t.id
        · subst hid
          rw [find_of_mem ht] at ht'
          cases ht'
          simpa [refundOf] using ha
        · simp [refundOf, hid]
      | _ => exact .inl rfl
  rcases h with h | ⟨h, -⟩
  · exact h.trans_le (le_max_right _ _)
  · exact h.trans_le (le_max_left _ _)

end

theorem isDone_effect {s' : Race} (h : Effect s bad s') (hbad : ¬bad) {id : ℕ}
    (hd : s.isDone id = true) : s'.isDone id = true := by
  cases h with
  | move _ _ t t' r _ _ hc hr hs _ hb =>
    have hid : t'.id = t.id := congrArg Prod.fst hc
    by_cases h : id = t.id
    · subst h
      simp only [isDone, hr, Option.any_some, hs] at hd
      have hself := find_put_self (hid.symm ▸ hr : s.tasks.find t'.id = some r)
      rw [hid] at hself
      simp only [isDone, hself, Option.any_some]
      exact (hb hd).resolve_right hbad
    · rw [isDone, find_put_of_ne _ (by rwa [hid])]
      exact hd
  | _ => exact hd

theorem resurrects_isDone (cfg : PollConfig) {e : RaceEvent} (he : s.resurrects e = true) :
    ∃ id, s.isDone id = true ∧ (step cfg s e).isDone id = false := by
  cases e with
  | fetchWrite _ ti =>
    simp only [resurrects] at he
    split at he
    · rename_i t hk
      simp only [Bool.and_eq_true, Bool.not_eq_true', decide_eq_true_eq] at he
      obtain ⟨⟨⟨⟨hdb, hd⟩, hne⟩, hti⟩, hany⟩ := he
      obtain ⟨r, hr, hs⟩ := (Option.any_eq_true _ _).1 hany
      have hs : r.status = t.status := by simpa using hs
      have hst : (applyRealtime cfg t ti).status = ti.status := by simp [applyRealtime, hne]
      refine ⟨t.id, by simp [isDone, hr, hs, hd], ?_⟩
      have hsnap : t.snapshot ≠ (applyRealtime cfg t ti).snapshot := by
        intro h
        have h : t.status = ti.status := (congrArg TaskSnapshot.status h).trans hst
        rw [h] at hd
        exact absurd (hti.symm.trans hd) (by decide)
      have hwon := TaskTable.updateWithStatus_won (t := applyRealtime cfg t ti) hr
      simp only [step, hk, fetchWrite, if_pos hsnap, write, hdb, ← hs, hwon, isDone]
      have hself := find_put_self (a := applyRealtime cfg t ti) hr
      simp [show t.id = (applyRealtime cfg t ti).id from rfl, hself, hst, hti]
    · simp at he
  | _ => simp [resurrects] at he

/-- Final statuses are absorbing, and refunds at most the quota, in exactly the runs where no fetch
writes an unfinished status over a finished row. -/
theorem absorbing_iff_not_resurrects (cfg : PollConfig) (tasks : TaskTable) (es : List RaceEvent) :
    ((∀ pre mid post id, es = pre ++ mid ++ post →
        (run (step cfg) (init tasks) pre).isDone id = true →
        (run (step cfg) (init tasks) (pre ++ mid)).isDone id = true) ∧
      ∀ t ∈ tasks.rows, (run (step cfg) (init tasks) es).refunded t.id ≤ max t.quota 0) ↔
    Along (step cfg) (fun s e => s.resurrects e = false) (init tasks) es := by
  constructor
  · rintro ⟨h, -⟩
    refine along_iff.2 fun pre e post hes => ?_
    by_contra he
    rw [Bool.not_eq_false] at he
    obtain ⟨id, h1, h2⟩ := resurrects_isDone cfg he
    have h3 := h pre [e] post id (by simpa using hes) h1
    rw [run_append, run_cons, run_nil, h2] at h3
    cases h3
  · intro h
    refine ⟨?_, fun t ht => (inv_run h).refunded_le ht⟩
    rintro pre mid post id rfl hd
    obtain ⟨hpre, hmid⟩ := along_append.1 (along_append.1 h).1
    rw [run_append]
    refine (Along.run_inv (I := fun s => Inv tasks s ∧ s.isDone id = true) ?_
      ⟨inv_run hpre, hd⟩ hmid).2
    rintro s e ⟨hI, hd⟩ he
    have heff := step_effect cfg hI.fresh e
    exact ⟨inv_effect hI heff (by simp [he]), isDone_effect heff (by simp [he]) hd⟩

def videoTask : Task where
  id := 1
  taskID := "task_1"
  platform := "24"
  userId := 1
  channelId := 1
  quota := 100
  action := "generate"
  status := .submitted
  failReason := ""
  submitTime := 1800000000
  startTime := 0
  finishTime := 0
  progress := "10%"
  privateData := ⟨"up_1", "", .wallet, 0, 1, none⟩
  data := []

def pollConfig : PollConfig := ⟨60, 1000, "", id⟩

def videoTable : TaskTable := ⟨[videoTask], by decide⟩

def stillRunning : TaskInfo := ⟨"", .inProgress, "", "", "50%", 0⟩

def resurrection : List RaceEvent :=
  [.sweepRead 1800100000, .sweepWrite 0 1800100000 false, .bill 0 false,
   .fetchRead 1, .fetchWrite 1 stillRunning false,
   .sweepRead 1800100015, .sweepWrite 2 1800100015 false, .bill 2 false]

theorem refunded_twice_after_fetch :
    (run (step pollConfig) (init videoTable) (resurrection.take 3)).isDone 1 = true ∧
    (run (step pollConfig) (init videoTable) (resurrection.take 5)).isDone 1 = false ∧
    (run (step pollConfig) (init videoTable) resurrection).refunded 1 = 2 * videoTask.quota := by
  decide

theorem along_of_guarded {es : List RaceEvent} (hg : ∀ e ∈ es, e.guarded = true) :
    Along (step cfg) (fun s e => s.resurrects e = false) s es := by
  refine along_iff.2 fun pre e post hes => ?_
  have he := hg e (by simp [hes])
  cases e <;> simp_all [RaceEvent.guarded, resurrects]

/-- In every interleaving of the two pollers a task is finished by at most one run and billed at
most once, by that run, with a refund or a settlement. -/
theorem guarded_polls_bill_once (cfg : PollConfig) (tasks : TaskTable) (es : List RaceEvent)
    (hg : ∀ e ∈ es, e.guarded = true) (t : Task) (ht : t ∈ tasks.rows) :
    let s := run (step cfg) (init tasks) es
    s.log.countP (Entry.bills t.id) ≤ 1 ∧ s.log.countP (Entry.finishes t.id) ≤ 1 ∧
    (∀ k job amount, .refund k job t.id amount ∈ s.log →
      (∃ fs : TaskStatus, fs.isDone = false ∧ .moved k job t.id fs .failure ∈ s.log) ∧
        (job = .sweep → isLegacy t = false)) ∧
    (∀ k job, .settle k job t.id ∈ s.log →
      ∃ fs : TaskStatus, fs.isDone = false ∧ .moved k job t.id fs .success ∈ s.log) := by
  have hI : Inv tasks (run (step cfg) (init tasks) es) := inv_run (along_of_guarded hg)
  refine ⟨hI.bills_le ht, hI.finishes_le ht, fun k job amount he => ?_, fun k job he => ?_⟩
  · obtain ⟨fs, t', hfs, hm, ht', hl, -⟩ := hI.explained _ he
    rw [Table.find_of_mem ht, Option.some.injEq] at ht'
    exact ⟨⟨fs, hfs, hm⟩, ht' ▸ hl⟩
  · exact hI.explained _ he

def racingPolls : List RaceEvent :=
  [.sweepRead 1800100000, .pollRead, .pollRead,
   .videoWrite 1 1800100000 ⟨none, .ok (failTaskInfo "blocked"), none, []⟩ false,
   .sweepWrite 0 1800100001 false,
   .videoWrite 2 1800100002 ⟨none, .ok stillRunning, none, []⟩ false,
   .bill 0 false, .bill 1 false, .bill 2 false]

theorem racing_polls_bill_once : (run (step pollConfig) (init videoTable) racingPolls).log =
      [.moved 1 .video 1 .submitted .failure, .refund 1 .video 1 100] ∧
    (run (step pollConfig) (init videoTable) racingPolls).log.countP (Entry.bills 1) ≤ 1 :=
  ⟨by decide,
    (guarded_polls_bill_once pollConfig videoTable racingPolls (by decide) videoTask
      (mem_singleton_self _)).1⟩

def legacyTask : Task := { videoTask with submitTime := 1 }

theorem poll_refunds_legacy_task : isLegacy legacyTask = true ∧
    (run (step pollConfig) (init ⟨[legacyTask], by decide⟩)
      [.pollRead, .videoWrite 0 1800100000 ⟨none, .ok (failTaskInfo "blocked"), none, []⟩ false,
        .bill 0 false]).log =
      [.moved 0 .video 1 .submitted .failure, .refund 0 .video 1 100] := by
  decide

end Race

end AggreApi
