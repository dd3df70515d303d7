import AggreApi.RedisLimit

/-!
# What the Redis limiter lets in

The list is what is kept of the requests let in as long as the key does not expire between an
`LPUSH` and the `EXPIRE` that follows it. A request decides by its `LLEN` or its `LINDEX` and is let
in by a later `LPUSH`, so the limit holds exactly when every `LPUSH` still finds room.
-/

namespace AggreApi.RedisLimiterState

open Window RedisLimiterState

variable {cfg : RedisLimit} {s : RedisLimiterState} {i : ℕ} {a : RedisRequestAt}

/-- The list is what is kept, and its key outlives it unless a request is before its `EXPIRE`. -/
structure Kept (cfg : RedisLimit) (s : RedisLimiterState) : Prop where
  recent : Recent cfg.maxRequestNum (1000 * cfg.duration) s.clock s.admitted s.list.times
  outlives : (∃ a ∈ s.requests, pushed a = true) ∨
    ∀ d ∈ s.list.deadline, ∀ t ∈ s.list.times, t + 1000 * cfg.expiration ≤ d

theorem kept_start (now : ℤ) : Kept cfg (start now) where
  recent := Recent.nil
  outlives := .inr fun _ hd => nomatch hd

theorem exists_pushed_set (hi : s.requests[i]? = some a) (ha : pushed a = false)
    (b : RedisRequestAt) (h : ∃ c ∈ s.requests, pushed c = true) :
    ∃ c ∈ s.requests.set i b, pushed c = true := by
  obtain ⟨c, hc, hpushed⟩ := h
  obtain ⟨j, hj⟩ := List.mem_iff_getElem?.1 hc
  have hne : i ≠ j := by
    rintro rfl
    rw [hi] at hj
    cases hj
    rw [ha] at hpushed
    cases hpushed
  exact ⟨c, List.mem_of_getElem? (by rwa [List.getElem?_set_ne hne]), hpushed⟩

theorem mem_requests_set (hi : s.requests[i]? = some a) (b : RedisRequestAt) :
    b ∈ s.requests.set i b :=
  List.mem_set ((List.getElem?_eq_some_iff.1 hi).1) b

theorem Kept.next (h : Kept cfg s) (hi : s.requests[i]? = some a) (ha : pushed a = false)
    (b : RedisRequestAt) : Kept cfg (s.next i b) where
  recent := h.recent
  outlives := h.outlives.imp_left (exists_pushed_set hi ha b)

theorem Kept.elapse (h : Kept cfg s) (hn : 0 < cfg.maxRequestNum)
    (hexp : cfg.duration ≤ cfg.expiration) {ms : ℕ} (hlast : s.lasting (.elapse ms) = true) :
    Kept cfg (s.step cfg (.elapse ms)) := by
  have hle : s.clock ≤ s.clock + ms := by omega
  simp only [lasting, decide_eq_true_eq] at hlast
  unfold RedisList.live at hlast
  by_cases hdead : ∃ d ∈ s.list.deadline, d ≤ s.clock + ms
  · rw [if_pos hdead] at hlast
    have hgone : (s.step cfg (.elapse ms)).list = .empty := if_pos hdead
    have hstale : ∀ t ∈ s.list.times, 1000 * cfg.duration ≤ s.clock + ms - t := by
      intro t ht
      rcases hlast with hempty | hquiet
      · rw [← hempty] at ht
        cases ht
      · rcases h.outlives with ⟨a, ha, hpushed⟩ | hd
        · rw [hquiet a ha] at hpushed
          cases hpushed
        · obtain ⟨d, hd', hle'⟩ := hdead
          have := hd d hd' t ht
          omega
    constructor
    · rw [hgone]
      exact (h.recent.later hle).clear hn fun t ht => hstale t (List.mem_of_mem_head? ht)
    · rw [hgone]
      exact .inr fun _ hd => nomatch hd
  · have hlive : (s.step cfg (.elapse ms)).list = s.list := if_neg hdead
    constructor
    · rw [hlive]
      exact h.recent.later hle
    · rw [hlive]
      exact h.outlives

theorem Kept.command (h : Kept cfg s) (hi : s.requests[i]? = some a)
    (hexp : 0 < cfg.expiration) : Kept cfg (s.command cfg i a) := by
  cases a with
  | llen => exact h.next hi rfl _
  | lindex =>
    unfold command
    dsimp only
    split
    · exact h.next hi rfl _
    · split_ifs
      · exact h.next hi rfl _
      · exact h.next hi rfl _
  | lpush full =>
    refine ⟨h.recent.push, .inl ⟨_, mem_requests_set hi _, ?_⟩⟩
    cases full <;> rfl
  | ltrim => exact ⟨h.recent.take, .inl ⟨_, mem_requests_set hi _, rfl⟩⟩
  | expire =>
    have hpast : ∀ t ∈ s.list.times, t ≤ s.clock := fun t ht =>
      h.recent.past t (h.recent.initial.subset ht)
    unfold command
    dsimp only
    unfold RedisList.expire
    split_ifs with hempty
    · refine ⟨h.recent, .inr fun d _ t ht => ?_⟩
      change t ∈ s.list.times at ht
      rw [hempty] at ht
      cases ht
    · have hahead : ¬∃ d ∈ some (s.clock + 1000 * cfg.expiration), d ≤ s.clock := by
        rintro ⟨d, hd, hle⟩
        cases hd
        omega
      rw [RedisList.live, if_neg hahead]
      refine ⟨h.recent, .inr fun d hd t ht => ?_⟩
      cases hd
      have := hpast t ht
      omega
  | done => exact h

theorem Kept.step (h : Kept cfg s) (hn : 0 < cfg.maxRequestNum) (hw : 0 < cfg.duration)
    (hexp : cfg.duration ≤ cfg.expiration) (e : RedisLimiterEvent) (hlast : s.lasting e = true) :
    Kept cfg (s.step cfg e) := by
  cases e with
  | begin =>
    refine ⟨h.recent, h.outlives.imp_left ?_⟩
    rintro ⟨a, ha, hpushed⟩
    exact ⟨a, List.mem_append_left _ ha, hpushed⟩
  | elapse => exact h.elapse hn hexp hlast
  | command =>
    unfold RedisLimiterState.step
    dsimp only
    split
    · rename_i a hi
      exact h.command hi (hw.trans_le hexp)
    · exact h

theorem command_admitted (cfg : RedisLimit) (s : RedisLimiterState) (i : ℕ)
    (ha : ∀ full, a ≠ .lpush full) :
    (s.command cfg i a).admitted = s.admitted := by
  cases a with
  | llen => rfl
  | lindex =>
    unfold command
    dsimp only
    split
    · rfl
    · split_ifs <;> rfl
  | lpush full => exact absurd rfl (ha full)
  | ltrim => rfl
  | expire => rfl
  | done => rfl

/-- No window has more requests let in than the limit. -/
def Limited (cfg : RedisLimit) (s : RedisLimiterState) : Prop :=
  Bounded cfg.maxRequestNum (1000 * cfg.duration) s.admitted

theorem limited_step_iff (hn : 0 < cfg.maxRequestNum) (hw : 0 < cfg.duration) (hk : Kept cfg s)
    (h : Limited cfg s) (e : RedisLimiterEvent) :
    Limited cfg (s.step cfg e) ↔ s.roomy cfg e = true := by
  cases e with
  | begin | elapse ms => exact iff_of_true h rfl
  | command i =>
    unfold step roomy
    dsimp only
    rcases s.requests[i]? with _ | a
    · exact iff_of_true h rfl
    · by_cases ha : ∃ full, a = .lpush full
      · obtain ⟨full, rfl⟩ := ha
        rw [decide_eq_true_eq, ← not_le, hk.recent.le_count_iff hn, not_le]
        exact bounded_cons_iff (by omega) hk.recent.past h
      · have hsame := command_admitted cfg s i fun full heq => ha ⟨full, heq⟩
        refine iff_of_true ?_ ?_
        · dsimp only
          rw [Limited, hsame]
          exact h
        · cases a with
          | lpush full => exact absurd ⟨full, rfl⟩ ha
          | _ => rfl

end AggreApi.RedisLimiterState
