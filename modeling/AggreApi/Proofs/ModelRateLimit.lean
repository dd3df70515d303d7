import AggreApi.ModelRateLimit
import AggreApi.Proofs.RateLimit

/-!
# The success limit of model requests

With Redis the list of a user is what is kept of the requests that came back successful. In memory
the limit is checked with a key that takes every request handed on, at the time it arrives.
-/

namespace AggreApi

open Window ModelLimitState RedisList

variable {cfg : ModelRateLimit} {userId n : ℕ} {width now : ℤ} {log : List ℤ} {l : RedisList}

/-- The list is what is kept of the log, and its key outlives the window. -/
structure Counted (n : ℕ) (width now : ℤ) (log : List ℤ) (l : RedisList) : Prop where
  recent : Recent n width now log l.times
  short : l.times.length ≤ n
  outlives : ∀ d ∈ l.deadline, ∀ t ∈ l.times, t + width ≤ d

namespace Counted

theorem empty (h : Recent n width now log []) : Counted n width now log .empty where
  recent := h
  short := Nat.zero_le n
  outlives _ hd := nomatch hd

theorem past (h : Counted n width now log l) : ∀ t ∈ l.times, t ≤ now := fun t ht =>
  h.recent.past t (h.recent.initial.subset ht)

theorem live (h : Counted n width now log l) (hn : 0 < n) {now' : ℤ} (hle : now ≤ now') :
    Counted n width now' log (l.live now') := by
  unfold RedisList.live
  split_ifs with hdead
  · obtain ⟨d, hd, hd'⟩ := hdead
    refine empty ((h.recent.later hle).clear hn fun t ht => ?_)
    have := h.outlives d hd t (List.mem_of_mem_head? ht)
    omega
  · exact ⟨h.recent.later hle, h.short, h.outlives⟩

theorem expire (h : Counted n (1000 * width) now log l) (hn : 0 < n) :
    Counted n (1000 * width) now log (l.expire now width) := by
  unfold RedisList.expire
  split_ifs
  · exact h
  · refine live (l := ⟨l.times, some (now + 1000 * width)⟩)
      ⟨h.recent, h.short, fun d hd t ht => ?_⟩ hn le_rfl
    cases hd
    have := h.past t ht
    omega

theorem push (h : Counted n (1000 * width) now log l) (hn : 0 < n) :
    Counted n (1000 * width) now (now :: log) (((l.lPush now).lTrim n).expire now width) := by
  unfold RedisList.expire
  split_ifs with hempty
  · simp only [lTrim, lPush, List.take_eq_nil_iff, reduceCtorEq, or_false]
      at hempty
    omega
  · refine live ⟨h.recent.push.take, List.length_take_le n _, fun d hd t ht => ?_⟩ hn le_rfl
    cases hd
    have := h.recent.push.take.past t (h.recent.push.take.initial.subset ht)
    omega

end Counted

theorem elapsedSeconds_lt_iff (width : ℤ) {old : ℤ} (h : old ≤ now) :
    elapsedSeconds now old < width ↔ now - old < 1000 * width := by
  rw [elapsedSeconds, Int.tdiv_eq_ediv_of_nonneg (by omega)]
  omega

section
variable (h : Counted cfg.successMaxCount (1000 * cfg.duration) now log l)
include h

theorem checkRedisRateLimit_iff :
    (checkRedisRateLimit cfg now l).1 = some false ↔
      limitReached cfg.successMaxCount (1000 * cfg.duration) now log := by
  unfold checkRedisRateLimit limitReached
  by_cases hzero : cfg.successMaxCount = 0
  · rw [if_pos hzero, hzero]
    simp
  · have hn : 0 < cfg.successMaxCount := Nat.pos_of_ne_zero hzero
    rw [if_neg hzero, h.recent.full_iff hn h.short]
    by_cases hroom : l.lLen < cfg.successMaxCount
    · rw [if_pos hroom]
      refine iff_of_false (by simp) fun hfull => ?_
      exact absurd hfull.2.1 (Nat.not_le.2 hroom)
    · rw [if_neg hroom]
      have hfull : cfg.successMaxCount ≤ l.times.length := Nat.not_lt.1 hroom
      rcases hlast : l.times.getLast? with _ | old
      · simp [lIndexLast, hlast]
      · have hold := elapsedSeconds_lt_iff cfg.duration
          (h.past old (List.mem_of_getLast? hlast))
        simp only [lIndexLast, hlast, Option.some.injEq, exists_eq_left', hn, hfull,
          true_and, ← hold]
        split_ifs with hlt
        · exact iff_of_true rfl hlt
        · exact iff_of_false (by simp) hlt

theorem Counted.check :
    Counted cfg.successMaxCount (1000 * cfg.duration) now log
      (checkRedisRateLimit cfg now l).2 := by
  unfold checkRedisRateLimit
  split_ifs with hzero hroom
  · exact h
  · exact h
  · split
    · exact h
    · split_ifs
      · exact h.expire (Nat.pos_of_ne_zero hzero)
      · exact h

theorem Counted.record :
    Counted cfg.successMaxCount (1000 * cfg.duration) now (now :: log)
      (recordRedisRequest cfg now l) := by
  unfold recordRedisRequest
  split_ifs with hzero
  · have hnil : l.times = [] := List.eq_nil_of_length_eq_zero (by have := h.short; omega)
    refine ⟨⟨?_, fun hlt => absurd hlt (by omega), h.recent.push.sorted, h.recent.push.past⟩,
      h.short, h.outlives⟩
    rw [hnil]
    exact List.nil_prefix
  · exact h.push (Nat.pos_of_ne_zero hzero)

end

theorem redis_check (store : RedisModelStore) :
    ((redisRateLimitHandler cfg).check now store).2.success =
        (checkRedisRateLimit cfg now store.success).2 ∧
      (((redisRateLimitHandler cfg).check now store).1 = .successLimited ↔
        (checkRedisRateLimit cfg now store.success).1 = some false) := by
  unfold redisRateLimitHandler
  dsimp only
  rcases checkRedisRateLimit cfg now store.success with ⟨_ | _ | _, l⟩
  · simp
  · simp
  · dsimp only
    split_ifs <;> simp

/-- The Redis list of a user is what is kept of the requests that came back successful. -/
def RedisCounted (cfg : ModelRateLimit) (s : ModelLimitState RedisModelStore) : Prop :=
  Counted cfg.successMaxCount (1000 * cfg.duration) s.clock s.succeeded s.store.success

theorem RedisCounted.step {s : ModelLimitState RedisModelStore} (h : RedisCounted cfg s)
    (e : ModelLimitEvent) : RedisCounted cfg (s.step (redisRateLimitHandler cfg) e) := by
  cases e with
  | arrive =>
    unfold ModelLimitState.step
    dsimp only
    split_ifs
    · exact h
    · unfold RedisCounted
      dsimp only
      rw [(redis_check s.store).1]
      exact Counted.check h
  | finish =>
    unfold ModelLimitState.step
    dsimp only
    split_ifs
    · exact Counted.record h
    · exact h
    · exact h
  | elapse ms =>
    by_cases hzero : cfg.successMaxCount = 0
    · have hnil : s.store.success.times = [] :=
        List.eq_nil_of_length_eq_zero (by have := h.short; omega)
      have hlater := h.recent.later (show s.clock ≤ s.clock + ms by omega)
      change Counted _ _ (s.clock + ms) s.succeeded (s.store.success.live (s.clock + ms))
      unfold live
      split_ifs
      · exact Counted.empty (by rwa [hnil] at hlater)
      · exact ⟨hlater, h.short, h.outlives⟩
    · exact Counted.live h (Nat.pos_of_ne_zero hzero) (show s.clock ≤ s.clock + ms by omega)
  | clearExpiredItems => exact h

theorem modelTotalKey_ne : modelTotalKey userId ≠ modelCheckKey userId := by
  intro h
  have hlen := congrArg String.length h
  simp only [modelTotalKey, modelCheckKey, modelSuccessKey, String.length_append] at hlen
  rw [show "MRRL".length = 4 by decide, show "MRRLS".length = 5 by decide] at hlen
  omega

theorem modelSuccessKey_ne : modelSuccessKey userId ≠ modelCheckKey userId := by
  intro h
  have hlen := congrArg String.length h
  simp only [modelCheckKey, String.length_append] at hlen
  rw [show "_check".length = 6 by decide] at hlen
  omega

theorem limits_modelCheckKey :
    cfg.limits userId (modelCheckKey userId) = ⟨cfg.successMaxCount, cfg.duration⟩ :=
  if_neg modelTotalKey_ne.symm

namespace LimiterState

variable {limits : String → RateLimit} {s : LimiterState} {key : String}

theorem request_admitted (h : s.allows limits key = false) :
    (s.request limits key).admitted = s.admitted := by
  unfold request
  exact if_neg (by rw [← allows, h]; exact Bool.false_ne_true)

theorem request_admitted_of_allows (h : s.allows limits key = true) :
    (s.request limits key).admitted key = s.clock :: s.admitted key := by
  unfold request
  dsimp only
  rw [← allows, h, if_pos rfl, Function.update_self]

theorem Tracked.allows_iff (h : Tracked n width key s) (hn : 0 < n)
    (hlimit : limits key = ⟨n, width⟩) :
    s.allows limits key = true ↔ count width s.clock (s.admitted key) < n := by
  rcases h.request_cases hn hlimit with ⟨hfull, heq⟩ | ⟨hfree, -, hlog⟩
  · refine iff_of_false (fun hallow => ?_) (Nat.not_lt.2 hfull)
    have hgrow := request_admitted_of_allows hallow
    rw [heq] at hgrow
    exact List.cons_ne_self _ _ hgrow.symm
  · refine iff_of_true ?_ hfree
    by_contra hdeny
    rw [request_admitted (Bool.eq_false_iff.2 hdeny)] at hlog
    exact List.cons_ne_self _ _ hlog.symm

end LimiterState

open LimiterState

/-- The queue is what is kept of the successful requests, and of the one in flight. -/
structure MemoryCounted (cfg : ModelRateLimit) (userId : ℕ) (s : ModelLimitState LimiterState) :
    Prop where
  tracked : Tracked cfg.successMaxCount cfg.duration (modelCheckKey userId) s.store
  clock : s.store.clock = unixSeconds s.clock
  log : s.store.admitted (modelCheckKey userId) =
    (if s.inFlight then [unixSeconds s.clock] else []) ++ s.succeeded.map unixSeconds

namespace MemoryCounted

variable {s : ModelLimitState LimiterState}

theorem check_eq (h : s.countable cfg userId .arrive = true) (hidle : s.inFlight = false) :
    ∃ s' : LimiterState, (s' = s.store ∨
        s' = s.store.request (cfg.limits userId) (modelTotalKey userId)) ∧
      (memoryRateLimitHandler cfg userId).check s.clock s.store =
        (if s'.allows (cfg.limits userId) (modelCheckKey userId) then .passed else .successLimited,
          s'.request (cfg.limits userId) (modelCheckKey userId)) := by
  simp only [countable, hidle, Bool.false_eq_true, false_or, decide_eq_true_eq]
    at h
  unfold memoryRateLimitHandler
  dsimp only
  by_cases htotal : 0 < cfg.totalMaxCount
  · have hallow := h.resolve_left htotal.ne'
    rw [if_neg (by rw [hallow]; simp), if_pos htotal]
    exact ⟨_, .inr rfl, rfl⟩
  · rw [if_neg (fun hc => htotal hc.1), if_neg htotal]
    exact ⟨_, .inl rfl, rfl⟩

theorem check_frame {s' : LimiterState} (h : MemoryCounted cfg userId s)
    (hs' : s' = s.store ∨ s' = s.store.request (cfg.limits userId) (modelTotalKey userId)) :
    Tracked cfg.successMaxCount cfg.duration (modelCheckKey userId) s' ∧
      s'.clock = unixSeconds s.clock ∧
      s'.admitted (modelCheckKey userId) = s.store.admitted (modelCheckKey userId) := by
  rcases hs' with rfl | rfl
  · exact ⟨h.tracked, h.clock, rfl⟩
  · exact ⟨h.tracked.frame modelTotalKey_ne, h.clock, (request_frame _ _ modelTotalKey_ne).2⟩

theorem verdict_iff (h : MemoryCounted cfg userId s) (hn : 0 < cfg.successMaxCount)
    (hidle : s.inFlight = false) (harrive : s.countable cfg userId .arrive = true) :
    s.verdict (memoryRateLimitHandler cfg userId) = .successLimited ↔
      limitReached cfg.successMaxCount cfg.duration (unixSeconds s.clock)
        (s.succeeded.map unixSeconds) := by
  obtain ⟨s', hs', hcheck⟩ := check_eq harrive hidle
  obtain ⟨htracked, hclock, hlog⟩ := h.check_frame hs'
  have hallow := htracked.allows_iff hn limits_modelCheckKey
  rw [hclock, hlog, h.log, hidle, if_neg Bool.false_ne_true, List.nil_append] at hallow
  rw [verdict, hcheck, limitReached]
  dsimp only
  split_ifs with hyes
  · exact iff_of_false (by simp) fun hfull => absurd hfull.2 (Nat.not_le.2 (hallow.1 hyes))
  · exact iff_of_true rfl ⟨hn, Nat.not_lt.1 fun hlt => hyes (hallow.2 hlt)⟩

theorem arrive (h : MemoryCounted cfg userId s) (hn : 0 < cfg.successMaxCount)
    (harrive : s.countable cfg userId .arrive = true) :
    MemoryCounted cfg userId (s.step (memoryRateLimitHandler cfg userId) .arrive) := by
  unfold ModelLimitState.step
  dsimp only
  split_ifs with hflight
  · exact h
  · have hidle : s.inFlight = false := Bool.eq_false_iff.2 hflight
    obtain ⟨s', hs', hcheck⟩ := check_eq harrive hidle
    obtain ⟨htracked, hclock, hlog⟩ := h.check_frame hs'
    have hidleLog := h.log
    rw [hidle, if_neg Bool.false_ne_true, List.nil_append] at hidleLog
    rw [hcheck]
    rcases htracked.request_cases hn limits_modelCheckKey with
      ⟨hfull, heq⟩ | ⟨hfree, hnext, hgrow⟩
    · have hdeny : s'.allows (cfg.limits userId) (modelCheckKey userId) = false := by
        rw [Bool.eq_false_iff, Ne, htracked.allows_iff hn limits_modelCheckKey]
        exact Nat.not_lt.2 hfull
      rw [hdeny, heq]
      exact ⟨htracked, hclock, hlog.trans hidleLog⟩
    · rw [(htracked.allows_iff hn limits_modelCheckKey).2 hfree]
      refine ⟨hnext, hclock, hgrow.trans ?_⟩
      rw [hclock, hlog, hidleLog]
      rfl

theorem finish (h : MemoryCounted cfg userId s) {status : ℕ} (hok : status < 400) :
    MemoryCounted cfg userId (s.step (memoryRateLimitHandler cfg userId) (.finish status)) := by
  unfold ModelLimitState.step
  dsimp only
  split_ifs with hflight
  · refine ⟨h.tracked.frame modelSuccessKey_ne, h.clock, ?_⟩
    refine (request_frame _ _ modelSuccessKey_ne).2.trans (h.log.trans ?_)
    rw [hflight]
    rfl
  · exact h

theorem elapse (h : MemoryCounted cfg userId s) {ms : ℕ}
    (hsame : s.inFlight = true → unixSeconds (s.clock + ms) = unixSeconds s.clock) :
    MemoryCounted cfg userId (s.step (memoryRateLimitHandler cfg userId) (.elapse ms)) := by
  refine ⟨h.tracked.later ?_, rfl, h.log.trans ?_⟩
  · rw [h.clock]
    unfold unixSeconds
    omega
  · change _ = (if s.inFlight then [unixSeconds (s.clock + ms)] else []) ++ _
    split_ifs with hflight
    · rw [hsame hflight]
      rfl
    · rfl

theorem clear (h : MemoryCounted cfg userId s) (hn : 0 < cfg.successMaxCount)
    (hexp : s.store.limiter.expirationDuration ≤ 0 ∨
      cfg.duration ≤ s.store.limiter.expirationDuration + 1) :
    MemoryCounted cfg userId (s.step (memoryRateLimitHandler cfg userId) .clearExpiredItems) := by
  refine ⟨h.tracked.clear hn hexp, ?_, ?_⟩
  · exact (clear_clock s.store).trans h.clock
  · exact (congrFun (clear_admitted s.store) _).trans h.log

theorem step (h : MemoryCounted cfg userId s) (hn : 0 < cfg.successMaxCount) (e : ModelLimitEvent)
    (he : s.countable cfg userId e = true) :
    MemoryCounted cfg userId (s.step (memoryRateLimitHandler cfg userId) e) := by
  cases e with
  | arrive => exact h.arrive hn he
  | finish => exact h.finish (of_decide_eq_true he)
  | elapse => exact h.elapse (of_decide_eq_true he)
  | clearExpiredItems => exact h.clear hn (of_decide_eq_true he)

end MemoryCounted

end AggreApi
