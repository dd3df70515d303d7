import AggreApi.Proofs.RelayRetry

/-!
# The documented schedule of cross-group retry

The selection documents that each group exhausts its priorities before the next group is used. The
lookup never reports that they are exhausted, and a group is left only after `RetryTimes + 1`
attempts.
-/

namespace AggreApi

open List

variable {l : RelayLoop} {draw : ℕ} {ts : List Try}

namespace SelectEnv

variable {env : SelectEnv} {userGroup modelName : String} {ranges : List (ℤ × ℤ)}

def retryable (ranges : List (ℤ × ℤ)) (e : RelayError) : Bool :=
  shouldRetry ranges { userGroup := "" } e 1

theorem shouldRetry_of_retryable {ctx : SelectContext} {e : RelayError} {retryTimes : ℤ}
    (h : retryable ranges e = true) (haffinity : ctx.affinitySkip = false)
    (hpinned : ctx.specificChannel = false) (hpos : 0 < retryTimes) :
    shouldRetry ranges ctx e retryTimes = true := by
  have hnot : ¬retryTimes ≤ 0 := by omega
  simp only [retryable, shouldRetry] at h
  simp only [shouldRetry, haffinity, hpinned, hnot]
  exact h

/-- A pass in which everything works but the upstream, which answers with a retryable error. -/
def failsRetryably (ranges : List (ℤ × ℤ)) (t : Try) : Bool :=
  t.setupOk && t.bodyOk && t.answer.any (retryable ranges)

theorem Ready.found {q : ℕ} {t : Try} (hR : 1 ≤ env.retryTimes)
    (h : env.Ready userGroup "auto" modelName true q l) (hsetup : t.setupOk = true)
    (hq : q < (env.servingGroups userGroup "auto" modelName).length) :
    ∃ l' a, env.relayGetChannel l t = (l', some a) ∧ l'.param.retry < env.retryTimes ∧
      l'.ctx.affinitySkip = false ∧ l'.ctx.specificChannel = false := by
  unfold relayGetChannel
  rcases hcur : l.current with _ | a
  · rcases @select_auto env userGroup modelName q l.ctx l.param t.draw _ h.token h.model h.user
      .inl (h.stands rfl) with ⟨hnone, -⟩ | ⟨a, ha⟩
    · rw [getElem?_eq_none_iff] at hnone
      omega
    · have hlt : (env.cacheGetRandomSatisfiedChannel l.ctx l.param t.draw).param.retry <
          env.retryTimes := by
        have hnext := ha.next
        split_ifs at hnext with hend
        · rw [hnext.1]
          exact hR
        · rw [hnext.1]
          by_contra hge
          exact hend ⟨h.cross, by omega⟩
      simp only [ha.err, ha.channel, hsetup, if_true]
      exact ⟨_, _, rfl, hlt, by rw [ha.context]; exact h.noAffinity,
        by rw [ha.context]; exact h.noPinned⟩
  · obtain ⟨hnil, -⟩ := h.first a hcur
    have hcount := h.count
    rw [hnil, length_nil] at hcount
    exact ⟨_, _, rfl, show l.param.retry < env.retryTimes by omega, h.noAffinity, h.noPinned⟩

theorem relayPass_of_fails {q : ℕ} {t : Try} (hR : 1 ≤ env.retryTimes)
    (h : env.Ready userGroup "auto" modelName true q l) (hdone : l.done = false)
    (hfail : failsRetryably ranges t = true)
    (hq : q < (env.servingGroups userGroup "auto" modelName).length) :
    (env.relayPass ranges l t).done = false ∧
      ∃ q', env.Ready userGroup "auto" modelName true q' (env.relayPass ranges l t) := by
  simp only [failsRetryably, Bool.and_eq_true, Option.any_eq_true] at hfail
  obtain ⟨⟨hsetup, hbody⟩, e, he, hretryable⟩ := hfail
  obtain ⟨l', a, hget, hlt, haffinity, hpinned⟩ := h.found hR hsetup hq
  have hretry := h.retryCross rfl rfl
  obtain ⟨⟨-, q', hnext⟩, -, hsame⟩ := h.next hR hretry hget
  have hagain : shouldRetry ranges l'.ctx e ((env.retryTimes : ℤ) - l'.param.retry) = true :=
    shouldRetry_of_retryable hretryable haffinity hpinned (by omega)
  have hpass : env.relayPass ranges l t = advance l' a := by
    simp only [relayPass, hdone, hget, hbody, he, hagain, Nat.not_lt.2 hretry]
    rfl
  rw [hpass]
  exact ⟨hsame.trans hdone, q', hnext⟩

theorem relayPass_attempts_le (l : RelayLoop) (t : Try) :
    l.attempts.length ≤ (env.relayPass ranges l t).attempts.length := by
  rcases hdone : l.done with _ | _
  · have hsame := relayGetChannel_attempts env l t
    rcases relayPass_cases ranges t hdone with
      ⟨-, hlog⟩ | ⟨l', a, -, hget, ⟨-, hlog⟩ | hnew⟩
    · rw [hlog]
    · rw [hget] at hsame
      rw [hlog, ← hsame]
      simp
    · rw [hget] at hsame
      rw [hnew, advance_attempts, ← hsame]
      simp
  · rw [relayPass_done t hdone]

theorem relayRun_goes_on (hR : 1 ≤ env.retryTimes) : ∀ {ts : List Try} {l : RelayLoop} {q : ℕ},
    env.Ready userGroup "auto" modelName true q l → l.done = false →
    (∀ t ∈ ts, failsRetryably ranges t = true) →
    l.attempts.length + ts.length ≤
      (env.servingGroups userGroup "auto" modelName).length * (env.retryTimes + 1) →
    (run (env.relayPass ranges) l ts).done = false
  | [], _, _, _, hdone, _, _ => hdone
  | t :: ts, l, q, h, hdone, hfail, hlen => by
    have hcount := h.count
    rw [length_cons] at hlen
    have hq : q < (env.servingGroups userGroup "auto" modelName).length := by
      by_contra hge
      have := Nat.mul_le_mul_right (env.retryTimes + 1) (Nat.not_lt.1 hge)
      omega
    obtain ⟨hdone', q', hnext⟩ :=
      relayPass_of_fails hR h hdone (hfail t mem_cons_self) hq
    have hgrow : (env.relayPass ranges l t).attempts.length = l.attempts.length + 1 := by
      have hone : (run (env.relayPass ranges) l [t]).done = false := hdone'
      simpa using length_of_not_done hone
    rw [run_cons]
    exact relayRun_goes_on hR hnext hdone' (fun x hx => hfail x (mem_cons_of_mem t hx))
      (by rw [hgrow]; omega)

theorem relayRun_length (hR : 1 ≤ env.retryTimes)
    (hl : env.relayStart userGroup "auto" modelName true draw = some l)
    (hfail : ∀ t ∈ ts, failsRetryably ranges t = true)
    (hlong : (env.servingGroups userGroup "auto" modelName).length * (env.retryTimes + 1) ≤
      ts.length) :
    (run (env.relayPass ranges) l ts).attempts.length =
      (env.servingGroups userGroup "auto" modelName).length * (env.retryTimes + 1) := by
  obtain ⟨hready, hnil, hdone⟩ := ready_start hR hl
  have hw : env.Walks userGroup "auto" modelName true (run (env.relayPass ranges) l ts) :=
    Walks.run hR hl ts
  refine le_antisymm hw.length_le ?_
  generalize hn : (env.servingGroups userGroup "auto" modelName).length * (env.retryTimes + 1) = n
    at hlong
  have hpart : (run (env.relayPass ranges) l (ts.take n)).attempts.length = n := by
    rw [length_of_not_done, hnil, length_nil, Nat.zero_add, length_take_of_le hlong]
    refine relayRun_goes_on hR hready hdone (fun t ht => hfail t (mem_of_mem_take ht)) ?_
    rw [hn, hnil, length_nil, Nat.zero_add, length_take_of_le hlong]
  rw [← take_append_drop n ts, run_append]
  exact run_inv (I := fun l : RelayLoop => n ≤ l.attempts.length)
    (fun l t hle => hle.trans (relayPass_attempts_le l t)) hpart.ge (ts.drop n)

theorem relayRun_single (hR : env.retryTimes = 0)
    (hl : env.relayStart userGroup "auto" modelName true draw = some l)
    (hfail : ∀ t ∈ ts, failsRetryably ranges t = true) (hne : ts ≠ []) :
    ∃ a, (run (env.relayPass ranges) l ts).attempts = [a] ∧
      env.Scheduled userGroup "auto" modelName 0 0 a := by
  obtain ⟨a, ha, rfl⟩ := relayStart_chosen hl
  refine ⟨a, ?_, ha.scheduled⟩
  obtain ⟨t, ts, rfl⟩ := exists_cons_of_ne_nil hne
  have ht := hfail t mem_cons_self
  simp only [failsRetryably, Bool.and_eq_true, Option.any_eq_true] at ht
  obtain ⟨⟨-, hbody⟩, e, he, -⟩ := ht
  have hover : ∀ l : RelayLoop, ∀ t, l.attempts = [a] ∧ (l.done = true ∨ 0 < l.param.retry) →
      (env.relayPass ranges l t).attempts = [a] ∧ ((env.relayPass ranges l t).done = true ∨
        0 < (env.relayPass ranges l t).param.retry) := by
    rintro l t ⟨hlog, hdone | hpos⟩
    · rw [relayPass_done t hdone]
      exact ⟨hlog, .inl hdone⟩
    · unfold relayPass
      split
      · exact ⟨hlog, .inr hpos⟩
      · rw [if_pos (by omega)]
        exact ⟨hlog, .inl rfl⟩
  rw [run_cons]
  refine (run_inv hover ?_ ts).1
  simp only [relayPass, relayGetChannel, hbody, he, Bool.false_eq_true, if_false, Nat.not_lt_zero,
    Bool.not_true, nil_append]
  split
  · exact ⟨rfl, .inr Nat.zero_lt_one⟩
  · exact ⟨rfl, .inl rfl⟩

def documentedSchedule (env : SelectEnv) (userGroup modelName : String) : List (String × ℤ) :=
  (env.servingGroups userGroup "auto" modelName).flatMap fun g =>
    (env.store.levels g modelName).map fun p => (g, p)

/-- Attempts in the groups of a schedule, each with a channel of the priority it names. -/
def Follows (env : SelectEnv) (modelName : String) (attempts : List Attempt)
    (schedule : List (String × ℤ)) : Prop :=
  List.Forall₂ (fun a gp => a.group = gp.1 ∧
    (a.channel.id, gp.2) ∈ env.store.candidates gp.1 modelName) attempts schedule

theorem length_documentedSchedule : (env.documentedSchedule userGroup modelName).length =
    ((env.servingGroups userGroup "auto" modelName).map fun g =>
      (env.store.levels g modelName).length).sum := by
  simp [documentedSchedule, length_flatMap]

theorem length_le_sum_levels : (env.servingGroups userGroup "auto" modelName).length ≤
    ((env.servingGroups userGroup "auto" modelName).map fun g =>
      (env.store.levels g modelName).length).sum := by
  have hpos : ∀ g ∈ env.servingGroups userGroup "auto" modelName,
      1 ≤ (env.store.levels g modelName).length := fun g hg =>
    length_pos_iff.2 (ChannelStore.levels_ne_nil (of_mem_filter hg))
  calc (env.servingGroups userGroup "auto" modelName).length
      = ((env.servingGroups userGroup "auto" modelName).map fun _ => 1).sum := by simp
    _ ≤ _ := sum_le_sum hpos

theorem relayRun_scheduled (hl : env.relayStart userGroup "auto" modelName true draw = some l)
    (hlevels : ((env.servingGroups userGroup "auto" modelName).map fun g =>
      (env.store.levels g modelName).length).sum ≤ env.retryTimes + 1)
    (hfail : ∀ t ∈ ts, failsRetryably ranges t = true)
    (hlong : (env.servingGroups userGroup "auto" modelName).length * (env.retryTimes + 1) <
      ts.length) :
    (run (env.relayPass ranges) l ts).attempts.length =
        (env.servingGroups userGroup "auto" modelName).length * (env.retryTimes + 1) ∧
      ∀ k a, (run (env.relayPass ranges) l ts).attempts[k]? = some a →
        env.Scheduled userGroup "auto" modelName (k / (env.retryTimes + 1))
          (k % (env.retryTimes + 1)) a := by
  rcases Nat.eq_zero_or_pos env.retryTimes with hR | hR
  · obtain ⟨a, hlog, hsched⟩ := relayRun_single hR hl hfail
      (ne_nil_of_length_pos (by omega))
    obtain ⟨hlt, -⟩ := List.getElem?_eq_some_iff.1 hsched.1
    have hle := length_le_sum_levels.trans hlevels
    refine ⟨?_, fun k b hk => ?_⟩
    · rw [hlog, hR, length_singleton]
      omega
    · rw [hlog, getElem?_singleton] at hk
      split_ifs at hk with hk0
      rw [hk0, Nat.zero_div, Nat.zero_mod, ← Option.some.inj hk]
      exact hsched
  · have hw : env.Walks userGroup "auto" modelName true (run (env.relayPass ranges) l ts) :=
      Walks.run hR hl ts
    exact ⟨relayRun_length hR hl hfail hlong.le, fun k a hk => (hw.attempt hk).1⟩

/-- Where every attempt fails and there are retries for the levels, the documented schedule is
followed exactly where each group has `RetryTimes + 1` levels. -/
theorem documented_schedule_iff (env : SelectEnv) (userGroup modelName : String) (draw : ℕ)
    (l : RelayLoop) (hl : env.relayStart userGroup "auto" modelName true draw = some l)
    (hlevels : ((env.servingGroups userGroup "auto" modelName).map fun g =>
      (env.store.levels g modelName).length).sum ≤ env.retryTimes + 1)
    (ranges : List (ℤ × ℤ)) (ts : List Try)
    (hfail : ∀ t ∈ ts, failsRetryably ranges t = true)
    (hlong : (env.servingGroups userGroup "auto" modelName).length * (env.retryTimes + 1) <
      ts.length) :
    Follows env modelName (run (env.relayPass ranges) l ts).attempts
        (env.documentedSchedule userGroup modelName) ↔
      ∀ g ∈ env.servingGroups userGroup "auto" modelName,
        (env.store.levels g modelName).length = env.retryTimes + 1 := by
  obtain ⟨hcount, hsched⟩ := relayRun_scheduled hl hlevels hfail hlong
  have hdoc : (env.documentedSchedule userGroup modelName).length = _ :=
    length_documentedSchedule
  have hone : ((env.servingGroups userGroup "auto" modelName).length * (env.retryTimes + 1) ≤
      env.retryTimes + 1) → (env.servingGroups userGroup "auto" modelName).length ≤ 1 := by
    intro hle
    by_contra hlt
    have := Nat.mul_le_mul_right (env.retryTimes + 1) (Nat.not_le.1 hlt)
    omega
  constructor
  · intro hfollow g hg
    have heq := List.Forall₂.length_eq hfollow
    rw [hcount, hdoc] at heq
    have hlen := hone (heq ▸ hlevels)
    obtain ⟨g', hg'⟩ := length_eq_one_iff.1
      (le_antisymm hlen (length_pos_of_mem hg))
    rw [hg'] at heq hg
    rw [mem_singleton] at hg
    subst hg
    simpa using heq.symm
  · intro hfull
    have hsum : ((env.servingGroups userGroup "auto" modelName).map fun g =>
        (env.store.levels g modelName).length).sum =
        (env.servingGroups userGroup "auto" modelName).length * (env.retryTimes + 1) := by
      rw [map_congr_left hfull, map_const', sum_replicate, smul_eq_mul]
    have hlen := hone (hsum ▸ hlevels)
    refine forall₂_iff_get.2 ⟨by rw [hcount, hdoc, hsum], fun k hk hk' => ?_⟩
    have ha := hsched k _ (getElem?_eq_getElem hk)
    have hlt : k < env.retryTimes + 1 := by
      have := Nat.mul_le_mul_right (env.retryTimes + 1) hlen
      omega
    rw [Nat.div_eq_of_lt hlt, Nat.mod_eq_of_lt hlt] at ha
    obtain ⟨g, hg⟩ := length_eq_one_iff.1
      (le_antisymm hlen (List.getElem?_eq_some_iff.1 ha.1).1)
    have hgroup : (run (env.relayPass ranges) l ts).attempts[k].group = g := by
      simpa [hg] using ha.1.symm
    have hnum : (env.store.levels g modelName).length = env.retryTimes + 1 :=
      hfull g (by simp [hg])
    have hat : (env.documentedSchedule userGroup modelName)[k] =
        (g, levelAt (env.store.levels g modelName) k) := by
      rw [levelAt_of_lt (by omega)]
      simp [documentedSchedule, hg]
    rw [get_eq_getElem, get_eq_getElem, hat]
    exact ⟨hgroup, hgroup ▸ ha.2⟩

/-- Two groups with two priorities each and three retries. -/
theorem documented_schedule_not_followed :
    (run (sampleEnv.relayPass defaultRetryRanges) sampleLoop (sampleTries 9)).attempts.map
        (fun a => (a.group, a.channel.id)) =
      [("A", 1), ("A", 2), ("A", 2), ("A", 2), ("B", 3), ("B", 4), ("B", 4), ("B", 4)] ∧
    ¬Follows sampleEnv "m" (run (sampleEnv.relayPass defaultRetryRanges) sampleLoop
      (sampleTries 9)).attempts (sampleEnv.documentedSchedule "" "m") := by
  refine ⟨by decide, fun h => ?_⟩
  exact absurd (List.Forall₂.length_eq h) (by decide)

def sampleEnvOneGroup : SelectEnv :=
  { sampleEnv with
    setting := { userUsableGroups := [("A", "")], autoGroups := ["A"] }, retryTimes := 1 }

theorem sampleEnvOneGroup_start :
    (sampleEnvOneGroup.relayStart "" "auto" "m" true 0).isSome = true := by
  decide

theorem documented_schedule_iff_sample :
    Follows sampleEnvOneGroup "m" (run (sampleEnvOneGroup.relayPass defaultRetryRanges)
      ((sampleEnvOneGroup.relayStart "" "auto" "m" true 0).get sampleEnvOneGroup_start)
      (sampleTries 3)).attempts (sampleEnvOneGroup.documentedSchedule "" "m") :=
  (documented_schedule_iff sampleEnvOneGroup "" "m" 0 _ (Option.some_get _).symm
    (by decide) defaultRetryRanges (sampleTries 3) (by decide)
    (by decide)).2 (by decide)

end SelectEnv

end AggreApi
