import AggreApi.UsageData

/-!
# The usage statistics are exact where no row is doubled

What the rows and the unsaved entries amount to is what was logged, as long as every key has one
row. Two processes that both find no row insert two, and every later save adds to both; a single
process does not.
-/

namespace AggreApi

open List

variable {k : QuotaKey} {d : QuotaData} {rows cache : List QuotaData}

@[simp] theorem usageTotal_cons :
    usageTotal k (d :: rows) = (if d.1 = k then d.2 else 0) + usageTotal k rows := rfl

theorem usageTotal_eraseIdx {j : ℕ} (h : cache[j]? = some d) :
    usageTotal k (d :: cache.eraseIdx j) = usageTotal k cache := by
  obtain ⟨hj, rfl⟩ := List.getElem?_eq_some_iff.1 h
  exact ((getElem_cons_eraseIdx_perm hj).map _).sum_eq

theorem usageTotal_logQuotaDataCache (h : ∀ c ∈ cache, c.1.text = d.1.text → c.1 = d.1) :
    usageTotal k (logQuotaDataCache d cache) = usageTotal k (d :: cache) := by
  induction cache with
  | nil => rfl
  | cons c cache ih =>
    have ih := ih fun c hc => h c (mem_cons_of_mem _ hc)
    unfold logQuotaDataCache
    split_ifs with hc
    · simp only [usageTotal_cons, h c mem_cons_self hc]
      split_ifs
      · abel
      · simp
    · simp only [usageTotal_cons, ih]
      abel

/-- An entry is added once for each row with its key. -/
theorem usageTotal_increaseQuotaData : usageTotal k (increaseQuotaData d rows) =
    rows.countP (·.1 = d.1) • (if d.1 = k then d.2 else 0) + usageTotal k rows := by
  induction rows with
  | nil => simp [increaseQuotaData]
  | cons r rows ih =>
    change usageTotal k ((if r.1 = d.1 then _ else r) :: increaseQuotaData d rows) = _
    rw [usageTotal_cons, ih, usageTotal_cons]
    by_cases hr : r.1 = d.1
    · simp only [hr, if_true, countP_cons, decide_true, add_smul, one_smul]
      split_ifs
      · abel
      · simp
    · simp only [hr, if_false, countP_cons, decide_false, Bool.false_eq_true, add_zero]
      abel

theorem countP_increaseQuotaData :
    (increaseQuotaData d rows).countP (·.1 = k) = rows.countP (·.1 = k) := by
  rw [increaseQuotaData, countP_map]
  refine countP_congr fun r _ => ?_
  simp only [Function.comp]
  split_ifs <;> rfl

/-- What a process has still to save. -/
def QuotaProc.pending (p : QuotaProc) : List QuotaData :=
  match p.pos with
  | .writing d _ => d :: p.cache
  | _ => p.cache

namespace UsageStats

structure Exact (s : UsageStats) : Prop where
  amounts : ∀ k, usageTotal k s.rows + (s.procs.map fun p => usageTotal k p.pending).sum
    = usageTotal k s.logged
  single : ∀ k, s.rows.countP (·.1 = k) ≤ 1
  found : ∀ p ∈ s.procs, ∀ d, p.pos = .writing d true → 0 < s.rows.countP (·.1 = d.1)

variable {s : UsageStats} {i : ℕ} {p p' : QuotaProc}

/-- A process moves on and accounts for what it leaves in the table and the log. -/
theorem Exact.move (h : s.Exact) (hp : s.procs[i]? = some p) {logged : List QuotaData}
    (hk : ∀ k, usageTotal k rows + usageTotal k p'.pending + usageTotal k s.logged
      = usageTotal k s.rows + usageTotal k p.pending + usageTotal k logged)
    (hrows : ∀ k, s.rows.countP (·.1 = k) ≤ rows.countP (·.1 = k) ∧ rows.countP (·.1 = k) ≤ 1)
    (hfound : ∀ d, p'.pos = .writing d true → 0 < rows.countP (·.1 = d.1)) :
    Exact ⟨rows, s.procs.set i p', logged⟩ := by
  refine ⟨fun k => ?_, fun k => (hrows k).2, fun q hq d hd => ?_⟩
  · rw [sum_map_set p' _ hp]
    linear_combination h.amounts k + hk k
  · rcases mem_or_eq_of_mem_set hq with hq | rfl
    · exact (h.found q hq d hd).trans_le (hrows _).1
    · exact hfound d hd

theorem Exact.act (h : s.Exact) (e : StatsEvent) (hp : s.procs[i]? = some p)
    (hc : s.careful (i, e) = true) : (s.act i p e).Exact := by
  have hsame : ∀ k, s.rows.countP (·.1 = k) ≤ s.rows.countP (·.1 = k) ∧
      s.rows.countP (·.1 = k) ≤ 1 := fun k => ⟨le_rfl, h.single k⟩
  obtain ⟨cache, pos⟩ := p
  simp only [careful, hp] at hc
  unfold UsageStats.act
  split <;> rename_i hpos <;> try cases hpos
  · simp only [all_eq_true, Bool.or_eq_true, decide_eq_true_eq] at hc
    refine h.move hp (fun k => ?_) hsame (by simp)
    simp only [QuotaProc.pending, set]
    rw [usageTotal_logQuotaDataCache fun c hm ht => (hc c hm).resolve_left fun hn => hn ht]
    simp only [usageTotal_cons]
    abel
  · exact h.move hp (fun k => rfl) hsame (by simp)
  · dsimp only
    split
    · rename_i d hd
      refine h.move hp (fun k => ?_) hsame fun d' hd' => ?_
      · simp only [QuotaProc.pending]
        rw [usageTotal_eraseIdx hd]
      · obtain ⟨rfl, hany⟩ := QuotaAt.writing.inj hd'
        simpa [countP_pos_iff] using hany
    · exact h
  · rename_i d found
    cases found with
    | true =>
      have hone := (h.single d.1).antisymm (h.found _ (mem_of_getElem? hp) d rfl)
      refine h.move hp (fun k => ?_) (fun k => ?_) (by simp)
      · simp only [QuotaProc.pending, if_true, usageTotal_increaseQuotaData, hone, one_smul,
          usageTotal_cons]
        abel
      · simpa only [if_true, countP_increaseQuotaData] using hsame k
    | false =>
      refine h.move hp (fun k => ?_) (fun k => ?_) (by simp)
      · simp only [QuotaProc.pending, Bool.false_eq_true, if_false, usageTotal_cons]
        abel
      · have hsingle := h.single k
        simp only [Bool.false_eq_true, if_false, countP_cons]
        split_ifs with hk
        · have hnone : s.rows.countP (·.1 = k) = 0 := by
            rw [countP_eq_zero]
            intro r hr hrk
            have := all_eq_true.1 hc r hr
            simp_all
          omega
        · omega
  · split_ifs with hcache
    · dsimp only at hcache
      subst hcache
      exact h.move hp (fun k => rfl) hsame (by simp)
    · exact h
  · exact h

theorem Exact.step (h : s.Exact) (e : ℕ × StatsEvent) (hc : s.careful e = true) :
    (s.step e).Exact := by
  unfold UsageStats.step
  split
  · rename_i p hp
    exact h.act e.2 hp hc
  · exact h

theorem exact_init (n : ℕ) : (init n).Exact :=
  ⟨fun k => by simp [init, QuotaProc.pending, usageTotal], by simp [init], by simp [init]⟩

def saveOne (i : ℕ) : List (ℕ × StatsEvent) :=
  [(i, .save), (i, .select 0), (i, .write), (i, .finish)]

def loggedOnce : StatsEvent := .log ⟨1, "u", "m", 3700⟩ 5 7

/-- Two processes select before either inserts; one event more is then counted twice. -/
def doubledRun : UsageStats := run step (init 2)
  ([(0, loggedOnce), (1, loggedOnce), (0, .save), (1, .save), (0, .select 0), (1, .select 0),
    (0, .write), (1, .write), (0, .finish), (1, .finish), (0, loggedOnce)] ++ saveOne 0)

/-- At most one process, and the row it has found missing is. -/
def Missing (s : UsageStats) : Prop :=
  s.procs.length ≤ 1 ∧ ∀ p ∈ s.procs, ∀ d, p.pos = .writing d false → ∀ r ∈ s.rows, r.1 ≠ d.1

theorem Missing.step (h : s.Missing) (e : ℕ × StatsEvent) : (s.step e).Missing := by
  unfold UsageStats.step
  split
  · rename_i p hp
    obtain ⟨hi, rfl⟩ := List.getElem?_eq_some_iff.1 hp
    have hlen := h.1
    obtain ⟨p, hprocs⟩ := length_eq_one_iff.1 (show s.procs.length = 1 by omega)
    have he : e.1 = 0 := by omega
    have hset {q : QuotaProc} {rows logged : List QuotaData}
        (hq : ∀ d, q.pos = .writing d false → ∀ r ∈ rows, r.1 ≠ d.1) :
        Missing ⟨rows, s.procs.set e.1 q, logged⟩ := by
      rw [hprocs, he]
      exact ⟨le_rfl, by simpa using hq⟩
    unfold act
    split
    · exact hset (by simp)
    · exact hset (by simp)
    · split
      · refine hset fun d hd => ?_
        obtain ⟨rfl, hnone⟩ := QuotaAt.writing.inj hd
        simpa using hnone
      · exact h
    · exact hset (by simp)
    · split_ifs
      · exact hset (by simp)
      · exact h
    · exact h
  · exact h

theorem Missing.careful (h : s.Missing) (e : ℕ × StatsEvent) (hu : s.unmixed e = true) :
    s.careful e = true := by
  unfold UsageStats.careful
  split
  · simpa [unmixed, *] using hu
  · next hp _ => simpa using h.2 _ (mem_of_getElem? hp) _ rfl
  · rfl

end UsageStats
end AggreApi
