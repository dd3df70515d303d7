import AggreApi.RateLimit

/-!
# What the in-memory limiter lets in

A queue is what is kept of the requests let in: `Request` drops the oldest of `maxRequestNum`, and
the goroutine of the first `Init` drops a queue whose newest request is older than that caller's
expiration, whatever the window of the queue's own key.
-/

namespace AggreApi.LimiterState

open List Function

open InMemoryRateLimiter Window

variable {limits : String → RateLimit} {s : LimiterState} {key : String} {n : ℕ} {width : ℤ}

theorem kept_put (l : InMemoryRateLimiter) (queue : List ℤ) (s : LimiterState) (other : String) :
    kept { s with limiter := l.put key (.append queue s.clock) } other =
      if other = key then s.clock :: queue.reverse else kept { s with limiter := l } other := by
  unfold kept put
  by_cases hkey : other = key
  · subst hkey
    simp [RequestQueue.append]
  · simp [hkey]

theorem oldest_eq (queue : RequestQueue) : queue.1.reverse.getLast? = some queue.oldest := by
  rw [getLast?_reverse, head?_eq_some_head queue.2]
  rfl

theorem newest_eq (queue : RequestQueue) : queue.1.reverse.head? = some queue.newest := by
  rw [head?_reverse, getLast?_eq_some_getLast queue.2]
  rfl

theorem request_cases (s : LimiterState) (hn : 0 < n) (hlimit : limits key = ⟨n, width⟩)
    (hshort : (s.kept key).length ≤ n) :
    ((n ≤ (s.kept key).length ∧ ∃ t, (s.kept key).getLast? = some t ∧ s.clock - t < width) ∧
      s.request limits key = s) ∨
    (¬(n ≤ (s.kept key).length ∧ ∃ t, (s.kept key).getLast? = some t ∧ s.clock - t < width) ∧
      (∀ other, (s.request limits key).kept other =
        if other = key then (s.clock :: s.kept key).take n else s.kept other) ∧
      (s.request limits key).admitted =
        update s.admitted key (s.clock :: s.admitted key)) := by
  unfold LimiterState.request
  rw [hlimit]
  unfold InMemoryRateLimiter.request
  rcases hstore : s.limiter.store key with _ | queue
  · have hkept : s.kept key = [] := by simp [kept, hstore]
    refine .inr ⟨by simp [hkept], fun other => ?_, rfl⟩
    rw [hkept, take_of_length_le (by simpa using Nat.succ_le_of_lt hn)]
    exact kept_put s.limiter [] s other
  · have hkept : s.kept key = queue.1.reverse := by simp [kept, hstore]
    rw [hkept, length_reverse] at hshort
    rw [hkept, oldest_eq, length_reverse]
    dsimp only
    by_cases hroom : queue.1.length < n
    · rw [if_pos hroom]
      refine .inr ⟨fun h => absurd h.1 (by omega), fun other => ?_, rfl⟩
      rw [take_of_length_le (by simpa using hroom)]
      exact kept_put s.limiter queue.1 s other
    · rw [if_neg hroom]
      by_cases hold : width ≤ s.clock - queue.oldest
      · rw [if_pos hold]
        refine .inr ⟨?_, fun other => ?_, rfl⟩
        · rintro ⟨-, t, ht, hlt⟩
          cases ht
          omega
        · obtain ⟨m, rfl⟩ : ∃ m, n = m + 1 := ⟨n - 1, by omega⟩
          have hlen : queue.1.length = m + 1 := by omega
          have htail : queue.1.tail.reverse = queue.1.reverse.take m := by
            rw [← dropLast_reverse, dropLast_eq_take, length_reverse, hlen]
            rfl
          rw [take_succ_cons, ← htail]
          exact kept_put s.limiter queue.1.tail s other
      · rw [if_neg hold]
        exact .inl ⟨⟨by omega, _, rfl, by omega⟩, rfl⟩

/-- The queue of a key is what is kept of the requests let in. -/
structure Tracked (n : ℕ) (width : ℤ) (key : String) (s : LimiterState) : Prop where
  recent : Recent n width s.clock (s.admitted key) (s.kept key)
  short : (s.kept key).length ≤ n

theorem tracked_start (expirationDuration now : ℤ) :
    Tracked n width key (start expirationDuration now) where
  recent := Recent.nil
  short := Nat.zero_le n

theorem Tracked.request_cases (h : Tracked n width key s) (hn : 0 < n)
    (hlimit : limits key = ⟨n, width⟩) :
    (n ≤ count width s.clock (s.admitted key) ∧ s.request limits key = s) ∨
    (count width s.clock (s.admitted key) < n ∧ Tracked n width key (s.request limits key) ∧
      (s.request limits key).admitted key = s.clock :: s.admitted key) := by
  rcases LimiterState.request_cases s hn hlimit h.short with
    ⟨hfull, heq⟩ | ⟨hroom, hkept, hadmitted⟩
  · exact .inl ⟨(h.recent.full_iff hn h.short).2 hfull, heq⟩
  · have hfree : count width s.clock (s.admitted key) < n := by
      rw [← not_le, h.recent.full_iff hn h.short]
      exact hroom
    have hkept := (hkept key).trans (if_pos rfl)
    have hlog : (s.request limits key).admitted key = s.clock :: s.admitted key := by
      rw [hadmitted, update_self]
    refine .inr ⟨hfree, ⟨?_, ?_⟩, hlog⟩
    · change Recent n width s.clock _ _
      rw [hkept, hlog]
      exact h.recent.push.take
    · rw [hkept]
      exact length_take_le n _

theorem request_frame (limits : String → RateLimit) (s : LimiterState) {other : String}
    (hother : other ≠ key) :
    (s.request limits other).kept key = s.kept key ∧
      (s.request limits other).admitted key = s.admitted key := by
  have hput : ∀ l : InMemoryRateLimiter, ∀ queue, (l.put other queue).store key = l.store key :=
    fun l queue => update_of_ne hother.symm _ _
  constructor
  · unfold LimiterState.request kept InMemoryRateLimiter.request
    dsimp only
    split
    · split_ifs
      · rw [hput]
      · rw [hput]
      · rfl
    · rw [hput]
  · unfold LimiterState.request
    dsimp only
    split_ifs
    · exact update_of_ne hother.symm _ _
    · rfl

theorem kept_clearExpiredItems (s : LimiterState) (key : String) :
    kept { s with limiter := s.limiter.clearExpiredItems s.clock } key =
      if ∀ t ∈ (s.kept key).head?, s.limiter.expirationDuration < s.clock - t then []
      else s.kept key := by
  unfold kept clearExpiredItems
  dsimp only
  rcases s.limiter.store key with _ | queue
  · rfl
  · rw [Option.elim_some, newest_eq, Option.filter_some]
    by_cases hexp : s.limiter.expirationDuration < s.clock - queue.newest
    · simp [hexp]
    · simp [hexp]

theorem kept_clear (s : LimiterState) (key : String) :
    s.clear.kept key = s.kept key ∨ s.clear.kept key = [] ∧
      0 < s.limiter.expirationDuration ∧
        ∀ t ∈ (s.kept key).head?, s.limiter.expirationDuration < s.clock - t := by
  unfold clear
  split_ifs with hwake
  · have h := kept_clearExpiredItems s key
    split_ifs at h with hexp
    · exact .inr ⟨h, hwake.1, hexp⟩
    · exact .inl h
  · exact .inl rfl

theorem clear_clock (s : LimiterState) : s.clear.clock = s.clock := by
  unfold clear
  split_ifs <;> rfl

theorem clear_admitted (s : LimiterState) : s.clear.admitted = s.admitted := by
  unfold clear
  split_ifs <;> rfl

theorem Tracked.clear (h : Tracked n width key s) (hn : 0 < n)
    (hexp : s.limiter.expirationDuration ≤ 0 ∨ width ≤ s.limiter.expirationDuration + 1) :
    Tracked n width key s.clear := by
  rcases kept_clear s key with hkept | ⟨hkept, hpos, hstale⟩
  · refine ⟨?_, ?_⟩
    · rw [clear_clock, clear_admitted, hkept]
      exact h.recent
    · rw [hkept]
      exact h.short
  · refine ⟨?_, ?_⟩
    · rw [clear_clock, clear_admitted, hkept]
      refine h.recent.clear hn fun t ht => ?_
      have := hstale t ht
      omega
    · rw [hkept]
      exact Nat.zero_le n

theorem Tracked.later (h : Tracked n width key s) {now : ℤ} (hle : s.clock ≤ now) :
    Tracked n width key { s with clock := now } where
  recent := h.recent.later hle
  short := h.short

theorem Tracked.frame (h : Tracked n width key s) {other : String} (hother : other ≠ key) :
    Tracked n width key (s.request limits other) := by
  obtain ⟨hkept, hadmitted⟩ := request_frame limits s hother
  refine ⟨?_, ?_⟩
  · change Recent n width s.clock ((s.request limits other).admitted key)
      ((s.request limits other).kept key)
    rw [hadmitted, hkept]
    exact h.recent
  · rw [hkept]
    exact h.short

theorem step_expirationDuration (limits : String → RateLimit) (s : LimiterState)
    (e : LimiterEvent) :
    (s.step limits e).limiter.expirationDuration = s.limiter.expirationDuration := by
  cases e with
  | init => rfl
  | elapse => rfl
  | request =>
    unfold step LimiterState.request InMemoryRateLimiter.request
    dsimp only
    split
    · split_ifs <;> rfl
    · rfl
  | clearExpiredItems =>
    unfold step clear
    dsimp only
    split_ifs <;> rfl

theorem Tracked.step (h : Tracked n width key s) (hn : 0 < n) (hlimit : limits key = ⟨n, width⟩)
    (hexp : s.limiter.expirationDuration ≤ 0 ∨ width ≤ s.limiter.expirationDuration + 1)
    (e : LimiterEvent) : Tracked n width key (s.step limits e) := by
  cases e with
  | init => exact ⟨h.recent, h.short⟩
  | elapse => exact h.later (by omega)
  | request other =>
    by_cases hother : other = key
    · subst hother
      change Tracked n width other (s.request limits other)
      rcases h.request_cases hn hlimit with ⟨-, heq⟩ | ⟨-, htracked, -⟩
      · rw [heq]
        exact h
      · exact htracked
    · exact h.frame hother
  | clearExpiredItems => exact h.clear hn hexp

theorem Tracked.bounded_step (h : Tracked n width key s) (hn : 0 < n) (hw : 0 < width)
    (hlimit : limits key = ⟨n, width⟩) (hb : Bounded n width (s.admitted key)) (e : LimiterEvent) :
    Bounded n width ((s.step limits e).admitted key) := by
  cases e with
  | init => exact hb
  | elapse => exact hb
  | request other =>
    change Bounded n width ((s.request limits other).admitted key)
    by_cases hother : other = key
    · subst hother
      rcases h.request_cases hn hlimit with ⟨-, heq⟩ | ⟨hfree, -, hlog⟩
      · rw [heq]
        exact hb
      · rw [hlog]
        exact (bounded_cons_iff hw h.recent.past hb).2 hfree
    · rw [(request_frame limits s hother).2]
      exact hb
  | clearExpiredItems =>
    change Bounded n width (s.clear.admitted key)
    rw [clear_admitted]
    exact hb

structure Burst (key : String) (k : ℕ) (s s' : LimiterState) : Prop where
  clock : s'.clock = s.clock
  wake : s'.wake = s.wake
  expiration : s'.limiter.expirationDuration = s.limiter.expirationDuration
  kept : s'.kept key = List.replicate k s.clock
  admitted : s'.admitted key = List.replicate k s.clock

theorem run_burst (hn : 0 < n) (hlimit : limits key = ⟨n, width⟩) (hkept : s.kept key = [])
    (hadmitted : s.admitted key = []) : ∀ k ≤ n,
    Burst key k s (run (step limits) s (List.replicate k (.request key)))
  | 0, _ => ⟨rfl, rfl, rfl, hkept, hadmitted⟩
  | k + 1, hk => by
    have ih := run_burst hn hlimit hkept hadmitted k (by omega)
    rw [replicate_succ', run_append]
    generalize run (step limits) s (List.replicate k (.request key)) = s' at ih ⊢
    have hlen : (s'.kept key).length = k := by rw [ih.kept, length_replicate]
    change Burst key (k + 1) s (s'.request limits key)
    rcases request_cases s' hn hlimit (by omega) with
      ⟨hfull, -⟩ | ⟨-, hpush, hlog⟩
    · exact absurd hfull.1 (by omega)
    · refine ⟨ih.clock, ih.wake, ?_, ?_, ?_⟩
      · exact (step_expirationDuration limits s' (.request key)).trans ih.expiration
      · rw [hpush, if_pos rfl, ih.clock, ih.kept, ← replicate_succ,
          take_of_length_le (by simpa using hk)]
      · rw [hlog, update_self, ih.clock, ih.admitted, ← replicate_succ]

def overrun (key : String) (n expiration : ℕ) : List LimiterEvent :=
  .elapse (expiration - 1) :: List.replicate n (.request key) ++
    [.elapse 1, .clearExpiredItems, .elapse expiration, .clearExpiredItems, .request key]

theorem clear_wake (hwake : 0 < s.limiter.expirationDuration ∧ s.wake ≤ s.clock) :
    s.clear.wake = s.clock + s.limiter.expirationDuration := by
  rw [clear, if_pos hwake]

theorem clear_kept_of_expired (hwake : 0 < s.limiter.expirationDuration ∧ s.wake ≤ s.clock)
    (h : ∀ t ∈ (s.kept key).head?, s.limiter.expirationDuration < s.clock - t) :
    s.clear.kept key = [] := by
  have hkept := kept_clearExpiredItems s key
  rw [if_pos h] at hkept
  rw [clear, if_pos hwake]
  exact hkept

theorem Burst.dropped (limits : String → RateLimit) {s' : LimiterState} {e : ℕ}
    (h : Burst key n s s') (he : 0 < e) (hexp : s.limiter.expirationDuration = e)
    (hwake : s.wake = s.clock + 1) :
    let s₂ := run (step limits) s' [.elapse 1, .clearExpiredItems, .elapse e, .clearExpiredItems]
    s₂.kept key = [] ∧ s₂.clock = s.clock + 1 + e ∧ s₂.admitted key = s'.admitted key := by
  intro s₂
  let s₁ : LimiterState := { s' with clock := s'.clock + (1 : ℕ) }
  have hexp₁ : s₁.limiter.expirationDuration = e := h.expiration.trans hexp
  have hclock₁ : s₁.clock = s.clock + 1 := by
    change s'.clock + ((1 : ℕ) : ℤ) = s.clock + 1
    rw [h.clock, Nat.cast_one]
  have hwake₁ : 0 < s₁.limiter.expirationDuration ∧ s₁.wake ≤ s₁.clock := by
    refine ⟨by omega, ?_⟩
    rw [hclock₁]
    exact (h.wake.trans hwake).le
  have hpass := clear_wake hwake₁
  have hdur : s₁.clear.limiter.expirationDuration = e :=
    (step_expirationDuration limits s₁ .clearExpiredItems).trans hexp₁
  have hclock₂ : s₁.clear.clock + (e : ℤ) = s.clock + 1 + e := by rw [clear_clock, hclock₁]
  have hhead : ∀ t ∈ (s₁.clear.kept key).head?, t = s.clock := by
    intro t ht
    rcases kept_clear s₁ key with heq | ⟨heq, -⟩
    · rw [heq, show s₁.kept key = _ from h.kept] at ht
      exact eq_of_mem_replicate (mem_of_mem_head? ht)
    · rw [heq] at ht
      cases ht
  refine ⟨clear_kept_of_expired ⟨?_, ?_⟩ fun t ht => ?_, ?_, ?_⟩
  · change 0 < s₁.clear.limiter.expirationDuration
    omega
  · change s₁.clear.wake ≤ s₁.clear.clock + (e : ℤ)
    rw [hpass, clear_clock, hexp₁]
  · change s₁.clear.limiter.expirationDuration < s₁.clear.clock + (e : ℤ) - t
    rw [hclock₂, hdur, hhead t ht]
    omega
  · exact (clear_clock _).trans hclock₂
  · exact (congrFun (clear_admitted _) key).trans (congrFun (clear_admitted s₁) key)

theorem run_overrun (hn : 0 < n) (hlimit : limits key = ⟨n, width⟩) (now : ℤ) {e : ℕ} (he : 0 < e) :
    (run (step limits) (start e now) (overrun key n e)).admitted key =
      (now + 2 * e) :: List.replicate n (now + e - 1) := by
  let s₀ : LimiterState := { start e now with clock := now + ((e - 1 : ℕ) : ℤ) }
  have hclock : s₀.clock = now + e - 1 := by
    change now + ((e - 1 : ℕ) : ℤ) = now + e - 1
    omega
  have hburst := run_burst (s := s₀) hn hlimit rfl rfl n le_rfl
  obtain ⟨hkept, hclock₂, hadmitted⟩ := hburst.dropped limits he rfl
    (show now + (e : ℤ) = s₀.clock + 1 by rw [hclock]; omega)
  change (run (step limits) s₀ (List.replicate n (.request key) ++
    ([LimiterEvent.elapse 1, .clearExpiredItems, .elapse e, .clearExpiredItems] ++
      [.request key]))).admitted key = _
  rw [run_append, run_append]
  generalize run (step limits) (run (step limits) s₀ (List.replicate n (.request key)))
    [.elapse 1, .clearExpiredItems, .elapse e, .clearExpiredItems] = s₂ at hkept hclock₂ hadmitted ⊢
  change (s₂.request limits key).admitted key = _
  rcases request_cases s₂ hn hlimit (by rw [hkept]; exact Nat.zero_le n) with
    ⟨hfull, -⟩ | ⟨-, -, hlog⟩
  · rw [hkept] at hfull
    exact absurd hfull.1 (Nat.not_le.2 hn)
  · rw [hlog, update_self, hadmitted, hburst.admitted, hclock₂, hclock]
    congr 1
    omega

structure Held (limits : String → RateLimit) (key : String) (expirationDuration : ℤ)
    (s : LimiterState) : Prop where
  tracked : Tracked (limits key).maxRequestNum (limits key).duration key s
  bounded : Bounded (limits key).maxRequestNum (limits key).duration (s.admitted key)
  expiration : s.limiter.expirationDuration = expirationDuration

theorem Held.step {expirationDuration : ℤ} (h : Held limits key expirationDuration s)
    (hn : 0 < (limits key).maxRequestNum) (hw : 0 < (limits key).duration)
    (hexp : expirationDuration ≤ 0 ∨ (limits key).duration ≤ expirationDuration + 1)
    (e : LimiterEvent) : Held limits key expirationDuration (s.step limits e) where
  tracked := h.tracked.step hn rfl (by rwa [h.expiration]) e
  bounded := h.tracked.bounded_step hn hw rfl h.bounded e
  expiration := (step_expirationDuration limits s e).trans h.expiration

/-- No window has more requests of a key than the limit exactly when the first goroutine cannot drop
a queue within it. -/
theorem limit_kept_iff (limits : String → RateLimit) (key : String) (expirationDuration now : ℤ)
    (hn : 0 < (limits key).maxRequestNum) (hw : 0 < (limits key).duration) :
    (∀ es, Bounded (limits key).maxRequestNum (limits key).duration
      ((run (step limits) (start expirationDuration now) es).admitted key)) ↔
    expirationDuration ≤ 0 ∨ (limits key).duration ≤ expirationDuration + 1 := by
  constructor
  · intro h
    by_contra hlong
    rw [not_or, not_le, not_le] at hlong
    obtain ⟨e, rfl⟩ := Int.eq_ofNat_of_zero_le hlong.1.le
    have he : 0 < e := by omega
    have hmany := h (overrun key (limits key).maxRequestNum e) (now + e - 1)
    rw [run_overrun hn rfl now he,
      countP_cons_of_pos (by simp only [decide_eq_true_eq]; omega), countP_replicate,
        if_pos (by simp only [decide_eq_true_eq]; omega)] at hmany
    omega
  · intro hexp es
    have hheld : Held limits key expirationDuration
        (run (step limits) (start expirationDuration now) es) :=
      run_inv (fun s e h => h.step hn hw hexp e)
        ⟨tracked_start expirationDuration now, bounded_nil, rfl⟩ es
    exact hheld.bounded

theorem limit_kept_iff_sample :
    (∀ es, Bounded 10 60 ((run (step fun _ => ⟨10, 60⟩) (start 1200 0) es).admitted "DW1.2.3.4")) ↔
      (1200 : ℤ) ≤ 0 ∨ (60 : ℤ) ≤ 1200 + 1 :=
  limit_kept_iff (fun _ => ⟨10, 60⟩) "DW1.2.3.4" 1200 0 (by decide) (by decide)

/-- With a limit of one request in 21 minutes and queues kept for 20, a second one is let in after a
little more than 20. -/
theorem limit_overrun : ((run (step fun _ => ⟨1, 1260⟩) (start 1200 0)
      [.elapse 1199, .request "MRRL1", .elapse 1, .clearExpiredItems, .init 1260, .elapse 1200,
        .clearExpiredItems, .request "MRRL1"]).admitted "MRRL1").countP
      (fun t => 1199 ≤ t ∧ t < 1199 + 1260) = 2 := by
  decide

end AggreApi.LimiterState
