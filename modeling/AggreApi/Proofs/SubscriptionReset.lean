import AggreApi.SubscriptionReset

/-!
# Resets: the loop and its boundaries

The loop goes from boundary to boundary, and ends unless the duration of a custom period has
wrapped. A row that only resets under its plan have touched stands at the last boundary before its
last reset, so when it is reset next makes no difference.
-/

namespace AggreApi

open UserSubscription Function Option

variable {cal : Calendar} {plan : SubscriptionPlan} {env : SubscriptionEnv} {endUnix : ℤ}

theorem calcNextResetTime_eq (t : ℤ) : calcNextResetTime cal plan t endUnix =
    if 0 < endUnix ∧ endUnix < nextBoundary cal plan t then 0 else nextBoundary cal plan t := by
  unfold nextBoundary calcNextResetTime
  rcases plan with ⟨period, seconds⟩
  cases period <;> dsimp only
  · simp
  · simp
  · simp
  · simp
  · split_ifs <;> simp_all

theorem calcNextResetTime_pos {t : ℤ} (h : 0 < calcNextResetTime cal plan t endUnix) :
    calcNextResetTime cal plan t endUnix = nextBoundary cal plan t ∧
      notAfterEnd endUnix (nextBoundary cal plan t) := by
  rw [calcNextResetTime_eq] at h ⊢
  split_ifs at h ⊢ with hcut
  · exact absurd h (lt_irrefl 0)
  · exact ⟨rfl, fun hend => not_lt.1 fun hlt => hcut ⟨hend, hlt⟩⟩

theorem calcNextResetTime_of_notAfterEnd {t : ℤ}
    (h : notAfterEnd endUnix (nextBoundary cal plan t)) :
    calcNextResetTime cal plan t endUnix = nextBoundary cal plan t := by
  rw [calcNextResetTime_eq, if_neg]
  rintro ⟨hend, hlt⟩
  exact absurd (h hend) (not_le.2 hlt)

theorem durationSeconds_of_nonOverflowing {seconds : ℤ} (hpos : 0 < seconds)
    (h : seconds * 1000000000 < 2 ^ 63) : durationSeconds seconds = seconds := by
  rw [durationSeconds, Int.bmod_eq_of_le (by omega) (by omega)]
  exact Int.mul_ediv_cancel seconds (by decide)

theorem nextBoundary_cases (plan : SubscriptionPlan) (hcal : cal.Ahead)
    (hplan : plan.quotaResetPeriod = .custom → 0 < plan.quotaResetCustomSeconds →
      0 < durationSeconds plan.quotaResetCustomSeconds) :
    (∀ t, nextBoundary cal plan t = 0) ∨ ∀ t, t < nextBoundary cal plan t := by
  unfold nextBoundary calcNextResetTime
  rcases plan with ⟨period, seconds⟩
  cases period with
  | never => exact .inl fun _ => rfl
  | daily => exact .inr fun t => by simpa using (hcal t).1
  | weekly => exact .inr fun t => by simpa using (hcal t).2.1
  | monthly => exact .inr fun t => by simpa using (hcal t).2.2
  | custom =>
    by_cases hpos : 0 < seconds
    · refine .inr fun t => ?_
      have hlater : 0 < durationSeconds seconds := hplan rfl hpos
      simp only [not_le.2 hpos, if_false, lt_irrefl, false_and]
      omega
    · refine .inl fun t => ?_
      simp [not_lt.1 hpos]

theorem advanceReset_returns (m : ℤ → ℕ)
    (hm : ∀ t, 0 < t → t ≤ env.now → 0 < calcNextResetTime env.cal plan t endUnix →
      calcNextResetTime env.cal plan t endUnix ≤ env.now →
      m (calcNextResetTime env.cal plan t endUnix) < m t) :
    ∀ (fuel : ℕ) (base next : ℤ), 1 ≤ fuel →
      (0 < next → next ≤ env.now → m next + 2 ≤ fuel) →
      (advanceReset env plan endUnix fuel base next).isSome
  | 0, _, _, h, _ => absurd h (by omega)
  | fuel + 1, base, next, _, hfuel => by
    rw [advanceReset]
    split_ifs with hdue
    · have hcover := hfuel hdue.1 hdue.2
      refine advanceReset_returns m hm fuel next _ (by omega) fun hpos hle => ?_
      have := hm next hdue.1 hdue.2 hpos hle
      omega
    · rfl

theorem advanceReset_stays (env : SubscriptionEnv) (plan : SubscriptionPlan) {next : ℤ}
    (hpos : 0 < next) (hle : next ≤ env.now)
    (hsame : calcNextResetTime env.cal plan next endUnix = next) :
    ∀ (fuel : ℕ) (base : ℤ), advanceReset env plan endUnix fuel base next = none
  | 0, _ => rfl
  | fuel + 1, base => by
    rw [advanceReset, if_pos ⟨hpos, hle⟩, hsame]
    exact advanceReset_stays env plan hpos hle hsame fuel next

theorem advanceReset_unique {r r' : ℤ × ℤ} : ∀ {fuel fuel' : ℕ} {base next : ℤ},
    advanceReset env plan endUnix fuel base next = some r →
    advanceReset env plan endUnix fuel' base next = some r' → r = r'
  | 0, _, _, _, h, _ => nomatch h
  | _ + 1, 0, _, _, _, h' => nomatch h'
  | fuel + 1, fuel' + 1, base, next, h, h' => by
    rw [advanceReset] at h h'
    split_ifs at h h' with hdue
    · exact advanceReset_unique h h'
    · rw [← some.inj h, ← some.inj h']

theorem advanceReset_spec {b n : ℤ} : ∀ {fuel : ℕ} {base : ℤ},
    advanceReset env plan endUnix fuel base (calcNextResetTime env.cal plan base endUnix) =
      some (b, n) →
    n = calcNextResetTime env.cal plan b endUnix ∧ ¬(0 < n ∧ n ≤ env.now) ∧
      (∃ k, b = (nextBoundary env.cal plan)^[k] base) ∧ (base ≤ env.now → b ≤ env.now) ∧
      (0 < base → 0 < b)
  | 0, _, h => nomatch h
  | fuel + 1, base, h => by
    rw [advanceReset] at h
    split_ifs at h with hdue
    · obtain ⟨hn, hend, ⟨k, hk⟩, hle, hpos⟩ := advanceReset_spec h
      refine ⟨hn, hend, ⟨k + 1, ?_⟩, fun _ => hle hdue.2, fun _ => hpos hdue.1⟩
      rw [iterate_succ_apply, ← (calcNextResetTime_pos hdue.1).1]
      exact hk
    · cases h
      exact ⟨rfl, hdue, ⟨0, rfl⟩, fun h => h, fun h => h⟩

theorem advanceReset_later (env later : SubscriptionEnv) (hcal : later.cal = env.cal)
    (hle : env.now ≤ later.now) {b n : ℤ} {r r' : ℤ × ℤ} :
    ∀ {fuel fuel₁ fuel₂ : ℕ} {base next : ℤ},
    advanceReset env plan endUnix fuel base next = some (b, n) →
    advanceReset later plan endUnix fuel₁ base next = some r →
    advanceReset later plan endUnix fuel₂ b n = some r' → r = r'
  | 0, _, _, _, _, h, _, _ => nomatch h
  | fuel + 1, 0, _, _, _, _, h₁, _ => nomatch h₁
  | fuel + 1, fuel₁ + 1, fuel₂, base, next, h, h₁, h₂ => by
    rw [advanceReset] at h
    split_ifs at h with hdue
    · rw [advanceReset, if_pos ⟨hdue.1, hdue.2.trans hle⟩, hcal] at h₁
      exact advanceReset_later env later hcal hle h h₁ h₂
    · cases h
      exact advanceReset_unique h₁ h₂

def ResetTerminates (cal : Calendar) (plan : SubscriptionPlan) : Prop :=
  ∀ (now : ℤ) (plans : ℕ → Except String SubscriptionPlan) (sub : UserSubscription),
    ∃ fuel, (maybeResetUserSubscriptionWithPlanTx ⟨now, cal, plans, fuel⟩ sub plan).isSome

theorem maybeReset_isSome {sub : UserSubscription}
    (h : (advanceReset env plan sub.endTime env.fuel sub.resetBase
      (calcNextResetTime env.cal plan sub.resetBase sub.endTime)).isSome) :
    (maybeResetUserSubscriptionWithPlanTx env sub plan).isSome := by
  obtain ⟨⟨b, n⟩, hr⟩ := isSome_iff_exists.1 h
  unfold resetBase at hr
  simp only [maybeResetUserSubscriptionWithPlanTx]
  generalize (if sub.lastResetTime ≤ 0 then sub.startTime else sub.lastResetTime) = base at hr ⊢
  rw [hr]
  dsimp only
  split_ifs <;> rfl

theorem maybeReset_returns (hcal : cal.Ahead)
    (hplan : plan.quotaResetPeriod = .custom → 0 < plan.quotaResetCustomSeconds →
      durationSeconds plan.quotaResetCustomSeconds ≠ 0) (now : ℤ)
    (plans : ℕ → Except String SubscriptionPlan) {fuel : ℕ} (hfuel : now.toNat + 2 ≤ fuel)
    (sub : UserSubscription) :
    (maybeResetUserSubscriptionWithPlanTx ⟨now, cal, plans, fuel⟩ sub plan).isSome := by
  apply maybeReset_isSome
  dsimp only
  by_cases hback : plan.quotaResetPeriod = .custom ∧ 0 < plan.quotaResetCustomSeconds ∧
      durationSeconds plan.quotaResetCustomSeconds < 0
  · obtain ⟨hcustom, hpos, hneg⟩ := hback
    refine advanceReset_returns Int.toNat (fun t ht _ hnext _ => ?_) fuel _ _ (by omega)
      (fun _ _ => by dsimp only at *; omega)
    rw [(calcNextResetTime_pos hnext).1]
    rw [(calcNextResetTime_pos hnext).1] at hnext
    have hstep : nextBoundary cal plan t =
        t + durationSeconds plan.quotaResetCustomSeconds := by
      simp [nextBoundary, calcNextResetTime, hcustom, not_le.2 hpos]
    dsimp only at hnext ⊢
    omega
  · refine advanceReset_returns (fun t => (now - t).toNat) (fun t _ _ hnext hle => ?_) fuel _ _
      (by omega) (fun _ _ => by dsimp only at *; omega)
    rcases nextBoundary_cases plan hcal fun hcustom hpos => by
        have := hplan hcustom hpos
        by_contra hneg
        exact hback ⟨hcustom, hpos, by omega⟩ with hnone | hahead
    · rw [(calcNextResetTime_pos hnext).1, hnone] at hnext
      exact absurd hnext (lt_irrefl 0)
    · have := hahead t
      rw [(calcNextResetTime_pos hnext).1] at hle ⊢
      dsimp only at *
      omega

theorem not_resetTerminates (hcustom : plan.quotaResetPeriod = .custom)
    (hpos : 0 < plan.quotaResetCustomSeconds)
    (hzero : durationSeconds plan.quotaResetCustomSeconds = 0) : ¬ResetTerminates cal plan := by
  intro h
  have hsame : ∀ endUnix, 1 ≤ endUnix → calcNextResetTime cal plan 1 endUnix = 1 := by
    intro endUnix hend
    simp only [calcNextResetTime, hcustom, not_le.2 hpos, if_false, hzero, add_zero]
    exact if_neg fun hcut => absurd hcut.2 (not_lt.2 hend)
  obtain ⟨fuel, hfuel⟩ := h 1 (fun _ => .error "")
    { id := 1, userId := 1, teamId := 0, planId := 1, amountTotal := 0, amountUsed := 0,
      startTime := 1, endTime := 2, status := .active, lastResetTime := 1, nextResetTime := 1 }
  have hloop := advanceReset_stays ⟨1, cal, fun _ => .error "", fuel⟩ plan one_pos le_rfl
    (hsame 2 (by decide)) fuel 1
  rw [maybeResetUserSubscriptionWithPlanTx, if_neg (show ¬((0 : ℤ) < 1 ∧ (1 : ℤ) < 1) by decide),
    if_neg (by rw [hcustom]; decide)] at hfuel
  simp only [if_neg (show ¬(1 : ℤ) ≤ 0 by decide), hsame 2 (by decide), hloop] at hfuel
  cases hfuel

def evenCalendar : Calendar where
  nextDay t := (t / 86400 + 1) * 86400
  nextWeek t := (t / 604800 + 1) * 604800
  nextMonth t := (t / 2592000 + 1) * 2592000

theorem evenCalendar_ahead : evenCalendar.Ahead := by
  intro t
  simp only [evenCalendar]
  omega

/-- The row stands at its start or at a boundary that has passed, and waits for the one after it. -/
structure Settled (cal : Calendar) (plan : SubscriptionPlan) (t : ℤ) (sub : UserSubscription) :
    Prop where
  start : 0 < sub.startTime
  reached : ∃ k, sub.resetBase = (nextBoundary cal plan)^[k] sub.startTime
  base_pos : 0 < sub.resetBase
  past : sub.resetBase ≤ t
  next : sub.nextResetTime = calcNextResetTime cal plan sub.resetBase sub.endTime
  last : sub.lastResetTime = sub.resetBase ∨ sub.lastResetTime = 0 ∧ sub.nextResetTime = 0

variable {sub sub' : UserSubscription} {saved : Bool} {t now : ℤ}

section
variable (h : Settled cal plan t sub)
include h

theorem settled_advanced {b : ℤ} {k : ℕ} (hb : b = (nextBoundary cal plan)^[k] sub.resetBase)
    (hpos : 0 < b) (hle : b ≤ now) :
    Settled cal plan now { sub with
      amountUsed := 0
      lastResetTime := b
      nextResetTime := calcNextResetTime cal plan b sub.endTime } := by
  have hbase : resetBase { sub with
      amountUsed := 0
      lastResetTime := b
      nextResetTime := calcNextResetTime cal plan b sub.endTime } = b := if_neg (not_le.2 hpos)
  obtain ⟨j, hj⟩ := h.reached
  refine ⟨h.start, ⟨k + j, ?_⟩, ?_, ?_, ?_, .inl ?_⟩
  · rw [hbase, hb, hj, iterate_add_apply]
  · rwa [hbase]
  · rwa [hbase]
  · rw [hbase]
  · rw [hbase]

theorem resetAt_of_not_due (hdue : ¬(0 < sub.nextResetTime ∧ sub.nextResetTime ≤ now)) :
    resetAt cal plan now sub = some (sub, false) := by
  have hinit : ¬(sub.nextResetTime = 0 ∧ 0 < sub.nextResetTime) := by omega
  have hnext := h.next
  unfold resetBase at hnext
  simp only [resetAt, maybeResetUserSubscriptionWithPlanTx]
  generalize (if sub.lastResetTime ≤ 0 then sub.startTime else sub.lastResetTime) = base at hnext ⊢
  rw [← hnext, advanceReset]
  dsimp only
  rw [if_neg hdue]
  dsimp only
  rw [if_neg hdue, if_neg hinit]
  split_ifs <;> rfl

theorem resetAt_of_due (hdue : 0 < sub.nextResetTime ∧ sub.nextResetTime ≤ now)
    (hsome : (resetAt cal plan now sub).isSome) :
    ∃ b n, advanceReset ⟨now, cal, fun _ => .error "", now.toNat + 2⟩ plan sub.endTime
        (now.toNat + 2) sub.resetBase sub.nextResetTime = some (b, n) ∧
      resetAt cal plan now sub = some ({ sub with
        amountUsed := 0
        lastResetTime := b
        nextResetTime := n }, true) := by
  have hnever : plan.quotaResetPeriod ≠ .never := by
    intro hnever
    have hnone : sub.nextResetTime = 0 := by
      rw [h.next, calcNextResetTime, hnever]
    omega
  have hnext := h.next
  unfold resetBase at hnext ⊢
  simp only [resetAt, maybeResetUserSubscriptionWithPlanTx] at hsome ⊢
  generalize (if sub.lastResetTime ≤ 0 then sub.startTime else sub.lastResetTime) = base
    at hnext hsome ⊢
  rw [← hnext, if_neg (by omega), if_neg hnever] at hsome ⊢
  rcases hr : advanceReset ⟨now, cal, fun _ => .error "", now.toNat + 2⟩ plan sub.endTime
      (now.toNat + 2) base sub.nextResetTime with _ | ⟨b, n⟩
  · rw [hr] at hsome
    cases hsome
  · refine ⟨b, n, rfl, ?_⟩
    dsimp only
    rw [if_pos hdue]

theorem Settled.later {t' : ℤ} (hle : t ≤ t') : Settled cal plan t' sub :=
  ⟨h.start, h.reached, h.base_pos, h.past.trans hle, h.next, h.last⟩

theorem Settled.reset (hle : t ≤ now) (hreset : resetAt cal plan now sub = some (sub', saved)) :
    Settled cal plan now sub' ∧ ¬(0 < sub'.nextResetTime ∧ sub'.nextResetTime ≤ now) ∧
      (saved = true ↔ 0 < sub.nextResetTime ∧ sub.nextResetTime ≤ now) ∧
      (saved = true → sub'.amountUsed = 0) ∧ (saved = false → sub' = sub) := by
  by_cases hdue : 0 < sub.nextResetTime ∧ sub.nextResetTime ≤ now
  · obtain ⟨b, n, hloop, heq⟩ := resetAt_of_due h hdue (by rw [hreset]; rfl)
    rw [heq] at hreset
    obtain ⟨rfl, rfl⟩ := Prod.mk.inj (some.inj hreset)
    rw [h.next] at hloop
    obtain ⟨hn, hend, ⟨k, hk⟩, hb, hpos⟩ := advanceReset_spec hloop
    rw [hn] at hend ⊢
    refine ⟨settled_advanced h hk (hpos h.base_pos) (hb (h.past.trans hle)), hend, ?_, ?_, ?_⟩
    · exact iff_of_true rfl hdue
    · exact fun _ => rfl
    · exact fun hfalse => absurd hfalse (by decide)
  · rw [resetAt_of_not_due h hdue] at hreset
    obtain ⟨rfl, rfl⟩ := Prod.mk.inj (some.inj hreset)
    refine ⟨h.later hle, hdue, ?_, fun hfalse => absurd hfalse (by decide), fun _ => rfl⟩
    exact iff_of_false (by decide) hdue

end

section

variable (hplan : (∀ t, nextBoundary cal plan t = 0) ∨ ∀ t, t < nextBoundary cal plan t)
include hplan

theorem calcNextResetTime_nonneg (hpos : 0 < t) (endUnix : ℤ) :
    calcNextResetTime cal plan t endUnix = 0 ∨ 0 < calcNextResetTime cal plan t endUnix := by
  rw [calcNextResetTime_eq]
  split_ifs
  · exact .inl rfl
  · rcases hplan with hnone | hahead
    · exact .inl (hnone t)
    · exact .inr (hpos.trans (hahead t))

theorem settled_of_history (h : ResetHistory cal plan t sub) : Settled cal plan t sub := by
  induction h with
  | @created sub hstart hlast hnext =>
    have hbase : sub.resetBase = sub.startTime := by
      unfold resetBase
      rw [hlast]
      by_cases hpos : 0 < calcNextResetTime cal plan sub.startTime sub.endTime
      · rw [if_pos hpos, if_neg (not_le.2 hstart)]
      · rw [if_neg hpos, if_pos le_rfl]
    refine ⟨hstart, ⟨0, hbase⟩, by rwa [hbase], hbase.le, by rw [hbase, hnext], ?_⟩
    rw [hlast, hbase, hnext]
    split_ifs with hpos
    · exact .inl rfl
    · exact .inr ⟨rfl, (calcNextResetTime_nonneg hplan hstart _).resolve_right hpos⟩
  | consumed _ _ hle ih =>
    have h := ih.later hle
    exact ⟨h.start, h.reached, h.base_pos, h.past, h.next, h.last⟩
  | reset _ hle hreset ih => exact (ih.reset hle hreset).1

theorem Settled.due_iff (h : Settled cal plan t sub) :
    (0 < sub.nextResetTime ∧ sub.nextResetTime ≤ now) ↔
      ∃ b, ResetBoundary cal plan sub.startTime b ∧ sub.lastResetTime < b ∧ b ≤ now ∧
        notAfterEnd sub.endTime b := by
  obtain ⟨j, hj⟩ := h.reached
  have hlast : sub.lastResetTime ≤ sub.resetBase := by
    rcases h.last with heq | ⟨hzero, -⟩
    · exact heq.le
    · have := h.base_pos
      omega
  constructor
  · rintro ⟨hpos, hle⟩
    rw [h.next] at hpos hle
    obtain ⟨heq, hend⟩ := calcNextResetTime_pos hpos
    rw [heq] at hpos hle
    have hahead : sub.resetBase < nextBoundary cal plan sub.resetBase := by
      rcases hplan with hnone | hahead
      · exact absurd hpos (by rw [hnone]; decide)
      · exact hahead _
    refine ⟨_, ⟨j, ?_⟩, hlast.trans_lt hahead, hle, hend⟩
    rw [iterate_succ_apply', ← hj]
  · rintro ⟨b, ⟨k, hk⟩, hlt, hle, hend⟩
    rcases hplan with hnone | hahead
    · rw [iterate_succ_apply', hnone] at hk
      have : 0 ≤ sub.lastResetTime := by
        rcases h.last with heq | ⟨hzero, -⟩
        · rw [heq]
          exact h.base_pos.le
        · exact hzero.ge
      omega
    · have hmono : StrictMono fun k => (nextBoundary cal plan)^[k] sub.startTime :=
        strictMono_nat_of_lt_succ fun k => by
          rw [iterate_succ_apply']
          exact hahead _
      have hfirst : j ≤ k → nextBoundary cal plan sub.resetBase ≤ b := by
        intro hjk
        rw [hk, hj, ← iterate_succ_apply' (nextBoundary cal plan)]
        exact hmono.monotone (Nat.succ_le_succ hjk)
      have hnext : j ≤ k → sub.nextResetTime = nextBoundary cal plan sub.resetBase := by
        intro hjk
        rw [h.next]
        exact calcNextResetTime_of_notAfterEnd fun hpos => (hfirst hjk).trans (hend hpos)
      have hjk : j ≤ k := by
        rcases h.last with heq | ⟨hzero, -⟩
        · rw [heq, hj, hk] at hlt
          exact Nat.lt_succ_iff.1 (hmono.lt_iff_lt.1 hlt)
        · have hbase : sub.resetBase = sub.startTime := if_pos hzero.le
          have hzero : 0 = j := hmono.injective (hbase.symm.trans hj)
          omega
      have := hfirst hjk
      have := hahead sub.resetBase
      have := h.base_pos
      rw [hnext hjk]
      omega

end

theorem resetAt_isSome (hcal : cal.Ahead) (hplan : plan.nonOverflowing = true) (now : ℤ)
    (sub : UserSubscription) : (resetAt cal plan now sub).isSome := by
  refine maybeReset_returns hcal (fun hcustom hpos => ?_) now _ le_rfl sub
  rw [durationSeconds_of_nonOverflowing hpos (of_decide_eq_true hplan hcustom)]
  exact hpos.ne'

theorem resetAt_later {t₁ t₂ : ℤ} {s₁ s₂ s : UserSubscription} {saved₁ saved₂ : Bool}
    (h : Settled cal plan t sub) (h₁ : t ≤ t₁) (h₂ : t₁ ≤ t₂)
    (hr₁ : resetAt cal plan t₁ sub = some (s₁, saved₁))
    (hr₂ : resetAt cal plan t₂ s₁ = some (s₂, saved₂))
    (hr : resetAt cal plan t₂ sub = some (s, saved)) : s₂ = s := by
  by_cases hdue : 0 < sub.nextResetTime ∧ sub.nextResetTime ≤ t₁
  · obtain ⟨b₁, n₁, hloop₁, heq₁⟩ := resetAt_of_due h hdue (by rw [hr₁]; rfl)
    obtain ⟨b, n, hloop, heq⟩ := resetAt_of_due h ⟨hdue.1, hdue.2.trans h₂⟩ (by rw [hr]; rfl)
    have hsettled := (h.reset h₁ hr₁).1
    rw [hr₁] at heq₁
    rw [hr] at heq
    obtain ⟨rfl, rfl⟩ := Prod.mk.inj (some.inj heq₁)
    obtain ⟨rfl, rfl⟩ := Prod.mk.inj (some.inj heq)
    have hb₁ : 0 < b₁ := by
      rw [h.next] at hloop₁
      exact (advanceReset_spec hloop₁).2.2.2.2 h.base_pos
    have hbase : resetBase { sub with
        amountUsed := 0
        lastResetTime := b₁
        nextResetTime := n₁ } = b₁ := if_neg (not_le.2 hb₁)
    have hend : ∀ (r : ℤ × ℤ) (fuel : ℕ),
        advanceReset ⟨t₂, cal, fun _ => .error "", t₂.toNat + 2⟩ plan sub.endTime fuel b₁ n₁ =
          some r → (b, n) = r := fun _ _ =>
      advanceReset_later ⟨t₁, cal, fun _ => .error "", t₁.toNat + 2⟩
        ⟨t₂, cal, fun _ => .error "", t₂.toNat + 2⟩ rfl h₂ hloop₁ hloop
    by_cases hdue₂ : 0 < n₁ ∧ n₁ ≤ t₂
    · obtain ⟨b₂, n₂, hloop₂, heq₂⟩ := resetAt_of_due hsettled hdue₂ (by rw [hr₂]; rfl)
      rw [hr₂] at heq₂
      obtain ⟨rfl, -⟩ := Prod.mk.inj (some.inj heq₂)
      rw [hbase] at hloop₂
      obtain ⟨rfl, rfl⟩ := Prod.mk.inj (hend _ _ hloop₂)
      rfl
    · rw [resetAt_of_not_due hsettled hdue₂] at hr₂
      obtain ⟨rfl, -⟩ := Prod.mk.inj (some.inj hr₂)
      have hstay : advanceReset ⟨t₂, cal, fun _ => .error "", t₂.toNat + 2⟩ plan sub.endTime 1
          b₁ n₁ = some (b₁, n₁) := if_neg hdue₂
      obtain ⟨rfl, rfl⟩ := Prod.mk.inj (hend _ _ hstay)
      rfl
  · rw [resetAt_of_not_due h hdue] at hr₁
    obtain ⟨rfl, -⟩ := Prod.mk.inj (some.inj hr₁)
    rw [hr] at hr₂
    exact (Prod.mk.inj (some.inj hr₂)).1.symm

theorem newSubscription_history (env : GroupEnv) (db : GroupDb) (userId teamId : ℕ)
    (plan : SalePlan) (source prevGroup : String) {now : ℤ} (hnow : 0 < now) (endUnix : ℤ) :
    ResetHistory env.cal.toCalendar plan.toSubscriptionPlan now
      (newSubscription env db userId teamId plan source prevGroup now
        endUnix).toUserSubscription := by
  let sub := newSubscription env db userId teamId plan source prevGroup now endUnix
  change ResetHistory _ _ sub.startTime sub.toUserSubscription
  exact .created hnow rfl rfl

def dailySubscription : UserSubscription :=
  ⟨1, 1, 0, 1, 500, 70, 43200, 907200, .active, 43200, 86400⟩

theorem dailySubscription_history :
    ResetHistory evenCalendar ⟨.daily, 0⟩ dailySubscription.startTime dailySubscription :=
  .created (by decide) (by decide) (by decide)

end AggreApi
