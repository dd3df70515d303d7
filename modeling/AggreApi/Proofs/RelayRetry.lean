import AggreApi.RelayRetry
import AggreApi.Proofs.ChannelSelect

/-!
# The walk of the retry loop through the groups

The attempts follow a schedule: the groups that serve the model in their order, each with
`RetryTimes + 1` attempts that step down its priority levels and stay on the last.
-/

namespace AggreApi

open List Option

variable {draw : ℕ} {l l' : RelayLoop}

namespace SelectEnv

variable (env : SelectEnv) (userGroup tokenGroup modelName : String)

def walkedGroups : List String :=
  if tokenGroup = "auto" then env.setting.getUserAutoGroup userGroup else [tokenGroup]

def servingGroups : List String :=
  (env.walkedGroups userGroup tokenGroup).filter (env.store.serves modelName)

/-- An attempt in the group numbered `q` of those that serve the model, at the level of retry
`r`. -/
def Scheduled (q r : ℕ) (a : Attempt) : Prop :=
  (env.servingGroups userGroup tokenGroup modelName)[q]? = some a.group ∧
    (a.channel.id, levelAt (env.store.levels a.group modelName) r) ∈
      env.store.candidates a.group modelName

section Search

variable {env} {start draw : ℕ}

theorem searchAutoGroups_none : ∀ {groups : List String} {i : ℕ} {ctx : SelectContext}
    {param : RetryParam}, (∀ g ∈ groups, env.store.serves param.modelName g = false) →
      (env.searchAutoGroups start draw i groups ctx param).channel = none
  | [], _, _, _, _ => rfl
  | g :: groups, i, ctx, param, h => by
    have hg := h g mem_cons_self
    simp only [searchAutoGroups, ChannelStore.getRandomSatisfiedChannel_not_serves hg]
    exact searchAutoGroups_none fun x hx => h x (mem_cons_of_mem g hx)

theorem searchAutoGroups_found {g : String} {skipped post : List String} {i : ℕ}
    {ctx : SelectContext} {param : RetryParam}
    (hskip : ∀ x ∈ skipped, env.store.serves param.modelName x = false)
    (hg : env.store.serves param.modelName g = true) (hi : start ≤ i)
    (hzero : skipped ≠ [] ∨ start < i → param.retry = 0) :
    ∃ ch, (ch.id, levelAt (env.store.levels g param.modelName) param.retry) ∈
        env.store.candidates g param.modelName ∧
      env.searchAutoGroups start draw i (skipped ++ g :: post) ctx param =
        if ctx.crossGroupRetry && decide (env.retryTimes ≤ param.retry) then
          ⟨some ch, g, none, { ctx with
            autoGroup := some g, autoGroupIndex := some (i + skipped.length + 1) },
            { param with retry := 0, resetNextTry := true }⟩
        else
          ⟨some ch, g, none, { ctx with
            autoGroup := some g, autoGroupIndex := some (i + skipped.length) }, param⟩ := by
  induction skipped generalizing i ctx with
  | nil =>
    have hretry : (if start < i then 0 else param.retry) = param.retry := by
      split_ifs with hlt
      · exact (hzero (.inr hlt)).symm
      · rfl
    obtain ⟨ch, hch, hcand⟩ :=
      ChannelStore.getRandomSatisfiedChannel_serves hg param.retry draw
    refine ⟨ch, hcand, ?_⟩
    simp [searchAutoGroups, hretry, hch]
  | cons x skipped ih =>
    have hx := hskip x mem_cons_self
    have hr : param.retry = 0 := hzero (.inl (cons_ne_nil x skipped))
    have hparam : { param with retry := 0 } = param := by rw [← hr]
    obtain ⟨ch, hcand, heq⟩ := @ih (i + 1) { ctx with autoGroupIndex := some (i + 1) }
      (fun y hy => hskip y (mem_cons_of_mem x hy)) (by omega) (fun _ => hr)
    refine ⟨ch, hcand, ?_⟩
    have hlen : i + 1 + skipped.length = i + (x :: skipped).length := by
      rw [length_cons]
      omega
    simp [searchAutoGroups, ChannelStore.getRandomSatisfiedChannel_not_serves hx, hparam, heq, hlen]

end Search

/-- The context stands at a group that begins what remains of the serving groups from number `q` on.
-/
def StandsAt (ctx : SelectContext) (q : ℕ) (used : Prop) : Prop :=
  env.setting.autoGroups ≠ [] ∧
    ((env.setting.getUserAutoGroup userGroup).drop (ctx.autoGroupIndex.getD 0)).filter
        (env.store.serves modelName) = (env.servingGroups userGroup "auto" modelName).drop q ∧
    (used → ∃ g rest, (env.setting.getUserAutoGroup userGroup).drop
      (ctx.autoGroupIndex.getD 0) = g :: rest ∧ env.store.serves modelName g = true)

/-- The loop at the top of a pass. -/
structure Ready (crossGroupRetry : Bool) (q : ℕ) (l : RelayLoop) : Prop where
  token : l.param.tokenGroup = tokenGroup
  model : l.param.modelName = modelName
  noReset : l.param.resetNextTry = false
  user : l.ctx.userGroup = userGroup
  cross : l.ctx.crossGroupRetry = crossGroupRetry
  noAffinity : l.ctx.affinitySkip = false
  noPinned : l.ctx.specificChannel = false
  count : l.attempts.length = q * (env.retryTimes + 1) + l.param.retry
  retry : l.param.retry ≤ env.retryTimes + 1
  retryCross : tokenGroup = "auto" → crossGroupRetry = true → l.param.retry ≤ env.retryTimes
  oneGroup : ¬(tokenGroup = "auto" ∧ crossGroupRetry = true) → q = 0
  stands : tokenGroup = "auto" →
    env.StandsAt userGroup modelName l.ctx q (l.param.retry ≠ 0 ∨ l.current ≠ none)
  first : ∀ a, l.current = some a →
    l.attempts = [] ∧ env.Scheduled userGroup tokenGroup modelName 0 0 a

def logged (l : RelayLoop) (a : Attempt) : RelayLoop :=
  { l with attempts := l.attempts ++ [a], prices := l.prices ++ [l.info.groupRatioInfo] }

def advance (l : RelayLoop) (a : Attempt) : RelayLoop :=
  { logged l a with param := l.param.increaseRetry }

@[simp] theorem advance_ctx (l : RelayLoop) (a : Attempt) : (advance l a).ctx = l.ctx := rfl

@[simp] theorem advance_param (l : RelayLoop) (a : Attempt) :
    (advance l a).param = l.param.increaseRetry := rfl

@[simp] theorem advance_current (l : RelayLoop) (a : Attempt) :
    (advance l a).current = l.current := rfl

@[simp] theorem advance_attempts (l : RelayLoop) (a : Attempt) :
    (advance l a).attempts = l.attempts ++ [a] := rfl

section Next

variable {env} {userGroup tokenGroup modelName} {crossGroupRetry : Bool} {q : ℕ}

theorem servingGroups_auto : env.servingGroups userGroup "auto" modelName =
    (env.setting.getUserAutoGroup userGroup).filter (env.store.serves modelName) := by
  simp [servingGroups, walkedGroups]

theorem StandsAt.of_used {ctx : SelectContext} {used : Prop}
    (h : env.StandsAt userGroup modelName ctx q True) :
    env.StandsAt userGroup modelName ctx q used :=
  ⟨h.1, h.2.1, fun _ => h.2.2 trivial⟩

theorem scheduled_of_lookup {retry : ℕ} {ch : Channel} (hauto : tokenGroup ≠ "auto")
    (h : (env.store.getRandomSatisfiedChannel tokenGroup modelName retry draw).1 = some ch) :
    env.Scheduled userGroup tokenGroup modelName 0 retry ⟨tokenGroup, ch⟩ := by
  rcases hs : env.store.serves modelName tokenGroup with _ | _
  · rw [ChannelStore.getRandomSatisfiedChannel_not_serves hs] at h
    cases h
  · obtain ⟨c, hc, hcand⟩ := ChannelStore.getRandomSatisfiedChannel_serves hs retry draw
    obtain rfl : c = ch := some.inj (hc.symm.trans h)
    exact ⟨by simp [servingGroups, walkedGroups, hauto, hs], hcand⟩

/-- What a selection in the automatic group numbered `q` leaves. -/
structure ChosenAt (env : SelectEnv) (userGroup modelName : String) (q : ℕ) (ctx : SelectContext)
    (param : RetryParam) (sel : Selection) (a : Attempt) : Prop where
  channel : sel.channel = some a.channel
  group : sel.selectGroup = a.group
  err : sel.err = none
  scheduled : env.Scheduled userGroup "auto" modelName q param.retry a
  context : sel.ctx = { ctx with autoGroup := some a.group, autoGroupIndex :=
    sel.ctx.autoGroupIndex }
  next : if ctx.crossGroupRetry = true ∧ env.retryTimes ≤ param.retry then
      sel.param = { param with retry := 0, resetNextTry := true } ∧
        env.StandsAt userGroup modelName sel.ctx (q + 1) False
    else sel.param = param ∧ env.StandsAt userGroup modelName sel.ctx q True

theorem select_auto {ctx : SelectContext} {param : RetryParam} {draw : ℕ} {used : Prop}
    (htoken : param.tokenGroup = "auto") (hmodel : param.modelName = modelName)
    (huser : ctx.userGroup = userGroup) (hused : param.retry ≠ 0 → used)
    (h : env.StandsAt userGroup modelName ctx q used) :
    ((env.servingGroups userGroup "auto" modelName)[q]? = none ∧
        (env.cacheGetRandomSatisfiedChannel ctx param draw).channel = none) ∨
      ∃ a, ChosenAt env userGroup modelName q ctx param
        (env.cacheGetRandomSatisfiedChannel ctx param draw) a := by
  obtain ⟨hne, hfilter, hfirst⟩ := h
  generalize hp : ctx.autoGroupIndex.getD 0 = p at hfilter hfirst
  have hsel : env.cacheGetRandomSatisfiedChannel ctx param draw = env.searchAutoGroups p draw p
      ((env.setting.getUserAutoGroup userGroup).drop p) ctx param := by
    simp [cacheGetRandomSatisfiedChannel, htoken, hne, hp, huser]
  rw [hsel]
  rcases hq : (env.servingGroups userGroup "auto" modelName)[q]? with _ | g
  · refine .inl ⟨rfl, searchAutoGroups_none fun x hx => ?_⟩
    rw [drop_eq_nil_iff.2 (getElem?_eq_none_iff.1 hq)] at hfilter
    rw [hmodel]
    simpa using filter_eq_nil_iff.1 hfilter x hx
  · right
    obtain ⟨hlt, hget⟩ := List.getElem?_eq_some_iff.1 hq
    rw [drop_eq_getElem_cons hlt, hget, filter_eq_cons_iff] at hfilter
    obtain ⟨skipped, post, hdrop, hskip, hg, hpost⟩ := hfilter
    have hzero : skipped ≠ [] ∨ p < p → param.retry = 0 := by
      rintro (hsk | hlt)
      · by_contra hr
        obtain ⟨g', rest, hdrop', hg'⟩ := hfirst (hused hr)
        obtain ⟨x, skipped, rfl⟩ := exists_cons_of_ne_nil hsk
        rw [hdrop, cons_append, List.cons.injEq] at hdrop'
        exact hskip x mem_cons_self (hdrop'.1 ▸ hg')
      · omega
    obtain ⟨ch, hcand, heq⟩ := @searchAutoGroups_found env p draw g skipped post p ctx param
      (fun x hx => by rw [hmodel]; simpa using hskip x hx) (by rw [hmodel]; exact hg) le_rfl hzero
    rw [hmodel] at hcand
    have hnext : (env.setting.getUserAutoGroup userGroup).drop (p + skipped.length) =
        g :: post := by
      rw [← drop_drop, hdrop, drop_left]
    have hafter : (env.setting.getUserAutoGroup userGroup).drop (p + skipped.length + 1) =
        post := by
      rw [← drop_drop, hnext, drop_one, tail_cons]
    rw [hdrop, heq]
    by_cases hend : ctx.crossGroupRetry = true ∧ env.retryTimes ≤ param.retry
    · have hif : (ctx.crossGroupRetry && decide (env.retryTimes ≤ param.retry)) = true := by
        simp [hend]
      rw [if_pos hif]
      refine ⟨⟨g, ch⟩, rfl, rfl, rfl, ⟨hq, hcand⟩, rfl, ?_⟩
      rw [if_pos hend]
      refine ⟨rfl, hne, ?_, False.elim⟩
      rw [getD_some, hafter]
      exact hpost
    · have hif : ¬(ctx.crossGroupRetry && decide (env.retryTimes ≤ param.retry)) = true := by
        simpa using hend
      rw [if_neg hif]
      refine ⟨⟨g, ch⟩, rfl, rfl, rfl, ⟨hq, hcand⟩, rfl, ?_⟩
      rw [if_neg hend]
      refine ⟨rfl, hne, ?_, fun _ => ⟨g, post, hnext, hg⟩⟩
      rw [getD_some, hnext, filter_cons_of_pos hg, hpost,
        drop_eq_getElem_cons hlt, hget]

theorem relayStart_chosen
    (h : env.relayStart userGroup "auto" modelName crossGroupRetry draw = some l) :
    ∃ a, ChosenAt env userGroup modelName 0 { userGroup, crossGroupRetry }
        { tokenGroup := "auto", modelName }
        (env.distributeSelect userGroup "auto" modelName crossGroupRetry draw) a ∧
      l = { ctx := (env.distributeSelect userGroup "auto" modelName crossGroupRetry draw).ctx
            param := { tokenGroup := "auto", modelName }
            info := handleGroupRatio env.setting (env.distributeSelect userGroup "auto" modelName
              crossGroupRetry draw).ctx { userGroup, usingGroup := "auto" }
            current := some a } := by
  simp only [relayStart] at h
  split at h
  swap
  · cases h
  rename_i ch herr hch
  rw [some.injEq] at h
  have hne : env.setting.autoGroups ≠ [] := by
    intro hnil
    simp [distributeSelect, cacheGetRandomSatisfiedChannel, hnil] at hch
  have hstands : env.StandsAt userGroup modelName { userGroup, crossGroupRetry } 0 False :=
    ⟨hne, by rw [getD_none, drop_zero, drop_zero, servingGroups_auto],
      False.elim⟩
  rcases @select_auto env userGroup modelName 0 _ { tokenGroup := "auto", modelName } draw False
    rfl rfl rfl (absurd rfl) hstands with ⟨-, hnone⟩ | ⟨a, ha⟩
  · rw [distributeSelect, hnone] at hch
    cases hch
  · refine ⟨a, ha, ?_⟩
    have hgroup : (env.distributeSelect userGroup "auto" modelName crossGroupRetry
        draw).selectGroup = a.group := ha.group
    rw [← h, hgroup, some.inj (hch.symm.trans ha.channel)]

theorem ready_start (hR : 1 ≤ env.retryTimes)
    (h : env.relayStart userGroup tokenGroup modelName crossGroupRetry draw = some l) :
    env.Ready userGroup tokenGroup modelName crossGroupRetry 0 l ∧ l.attempts = [] ∧
      l.done = false := by
  by_cases hauto : tokenGroup = "auto"
  · subst hauto
    obtain ⟨a, ha, rfl⟩ := relayStart_chosen h
    have hnext := ha.next
    rw [if_neg (by simp; omega)] at hnext
    exact ⟨⟨rfl, rfl, rfl, by rw [ha.context], by rw [ha.context], by rw [ha.context],
      by rw [ha.context], by simp, by simp, by simp, by simp, fun _ => hnext.2.of_used,
      fun b hb => ⟨rfl, some.inj hb ▸ ha.scheduled⟩⟩, rfl, rfl⟩
  · simp only [relayStart, distributeSelect] at h
    split at h
    swap
    · cases h
    rename_i ch herr hch
    rw [some.injEq] at h
    simp only [cacheGetRandomSatisfiedChannel, hauto, if_false] at h herr hch
    split at hch
    · cases hch
    · rename_i found heq
      simp only [heq] at h
      subst h
      exact ⟨⟨rfl, rfl, rfl, rfl, rfl, rfl, rfl, by simp, by simp, fun ha => absurd ha hauto,
        by simp, fun ha => absurd ha hauto, fun b hb => ⟨rfl, some.inj hb ▸
          scheduled_of_lookup hauto (by rw [heq]; exact hch)⟩⟩, rfl, rfl⟩

theorem increaseRetry_of_noReset {param : RetryParam} (h : param.resetNextTry = false) :
    param.increaseRetry = { param with retry := param.retry + 1 } := by
  simp [RetryParam.increaseRetry, h]

theorem Ready.stay (a : Attempt) (h : env.Ready userGroup tokenGroup modelName crossGroupRetry q l)
    (hretry : l.param.retry ≤ env.retryTimes) (hattempts : l'.attempts = l.attempts)
    (hparam : l'.param = l.param) (hcur : l'.current = none)
    (hctx : l'.ctx = { l.ctx with
      autoGroup := l'.ctx.autoGroup, autoGroupIndex := l'.ctx.autoGroupIndex })
    (hlast : tokenGroup = "auto" → crossGroupRetry = true → l.param.retry < env.retryTimes)
    (hstands : tokenGroup = "auto" → env.StandsAt userGroup modelName l'.ctx q True) :
    env.Ready userGroup tokenGroup modelName crossGroupRetry q (advance l' a) := by
  have hinc : l'.param.increaseRetry = { l.param with retry := l.param.retry + 1 } := by
    rw [hparam, increaseRetry_of_noReset h.noReset]
  have hcount := h.count
  exact
    { token := by simp only [advance_param, hinc]; exact h.token
      model := by simp only [advance_param, hinc]; exact h.model
      noReset := by simp only [advance_param, hinc]; exact h.noReset
      user := by rw [advance_ctx, hctx]; exact h.user
      cross := by rw [advance_ctx, hctx]; exact h.cross
      noAffinity := by rw [advance_ctx, hctx]; exact h.noAffinity
      noPinned := by rw [advance_ctx, hctx]; exact h.noPinned
      count := by
        simp only [advance_attempts, advance_param, hinc, length_append,
          length_singleton, hattempts, hcount]
        omega
      retry := by simp only [advance_param, hinc]; omega
      retryCross := fun ha hc => by simp only [advance_param, hinc]; exact hlast ha hc
      oneGroup := h.oneGroup
      stands := fun ha => (hstands ha).of_used
      first := fun b hb => by simp [hcur] at hb }

theorem Ready.next_auto {sel : Selection} {ch : Channel}
    (h : env.Ready userGroup "auto" modelName crossGroupRetry q l)
    (hretry : l.param.retry ≤ env.retryTimes)
    (hsel : env.cacheGetRandomSatisfiedChannel l.ctx l.param draw = sel)
    (hch : sel.channel = some ch) (hctx' : l'.ctx = sel.ctx) (hparam' : l'.param = sel.param)
    (hcur : l'.current = none) (hattempts : l'.attempts = l.attempts) :
    env.Scheduled userGroup "auto" modelName q l.param.retry ⟨sel.selectGroup, ch⟩ ∧
      ∃ q', env.Ready userGroup "auto" modelName crossGroupRetry q'
        (advance l' ⟨sel.selectGroup, ch⟩) := by
  rcases @select_auto env userGroup modelName q l.ctx l.param draw _ h.token h.model h.user .inl
    (h.stands rfl) with ⟨-, hnone⟩ | ⟨a, ha⟩
  · rw [hsel, hch] at hnone
    cases hnone
  rw [hsel] at ha
  have ha' : (⟨sel.selectGroup, ch⟩ : Attempt) = a := by
    rw [ha.group, some.inj (hch.symm.trans ha.channel)]
  rw [ha']
  have hctx : l'.ctx = { l.ctx with
      autoGroup := l'.ctx.autoGroup, autoGroupIndex := l'.ctx.autoGroupIndex } := by
    rw [hctx', ha.context]
  have hnext := ha.next
  rw [← hparam', ← hctx'] at hnext
  refine ⟨ha.scheduled, ?_⟩
  by_cases hend : l.ctx.crossGroupRetry = true ∧ env.retryTimes ≤ l.param.retry
  · rw [if_pos hend] at hnext
    obtain ⟨hparam, hstands⟩ := hnext
    have hinc : l'.param.increaseRetry = { l.param with retry := 0 } := by
      rw [hparam]
      simp [RetryParam.increaseRetry, h.noReset]
    have hcount := h.count
    have hfull : l.param.retry = env.retryTimes := by omega
    refine ⟨q + 1, ?_⟩
    exact
      { token := by simp only [advance_param, hinc]; exact h.token
        model := by simp only [advance_param, hinc]; exact h.model
        noReset := by simp only [advance_param, hinc]; exact h.noReset
        user := by rw [advance_ctx, hctx]; exact h.user
        cross := by rw [advance_ctx, hctx]; exact h.cross
        noAffinity := by rw [advance_ctx, hctx]; exact h.noAffinity
        noPinned := by rw [advance_ctx, hctx]; exact h.noPinned
        count := by
          simp only [advance_attempts, advance_param, hinc, length_append,
            length_singleton, hattempts, hcount,
            hfull]
          ring
        retry := by simp [hinc]
        retryCross := fun _ _ => by simp [hinc]
        oneGroup := fun hn => absurd ⟨rfl, h.cross ▸ hend.1⟩ hn
        stands := fun _ => ⟨hstands.1, hstands.2.1, by simp [hinc, hcur]⟩
        first := fun b hb => by simp [hcur] at hb }
  · rw [if_neg hend] at hnext
    obtain ⟨hparam, hstands⟩ := hnext
    refine ⟨q, h.stay a hretry hattempts hparam hcur hctx (fun _ hc => ?_) fun _ => hstands⟩
    by_contra hlt
    exact hend ⟨h.cross.trans hc, by omega⟩

theorem Ready.next {t : Try} {a : Attempt} (hR : 1 ≤ env.retryTimes)
    (h : env.Ready userGroup tokenGroup modelName crossGroupRetry q l)
    (hretry : l.param.retry ≤ env.retryTimes) (hget : env.relayGetChannel l t = (l', some a)) :
    (env.Scheduled userGroup tokenGroup modelName q l.param.retry a ∧
        ∃ q', env.Ready userGroup tokenGroup modelName crossGroupRetry q' (advance l' a)) ∧
      l'.attempts = l.attempts ∧ l'.done = l.done := by
  unfold relayGetChannel at hget
  split at hget
  · rename_i b hcur
    simp only [Prod.mk.injEq, some.injEq] at hget
    obtain ⟨rfl, rfl⟩ := hget
    obtain ⟨hnil, hsched⟩ := h.first b hcur
    have hcount := h.count
    rw [hnil, length_nil] at hcount
    have hq : q = 0 := by
      rcases Nat.eq_zero_or_pos q with hq | hq
      · exact hq
      · have := Nat.mul_pos hq (show 0 < env.retryTimes + 1 by omega)
        omega
    have hr : l.param.retry = 0 := by omega
    subst hq
    refine ⟨⟨by rw [hr]; exact hsched, 0, ?_⟩, rfl, rfl⟩
    exact h.stay b hretry rfl rfl rfl rfl (fun _ _ => by omega) fun ha =>
      ⟨(h.stands ha).1, (h.stands ha).2.1, fun _ => (h.stands ha).2.2 (.inr (by simp [hcur]))⟩
  · rename_i hcur
    dsimp only at hget
    split at hget
    · cases hget
    · cases hget
    · rename_i ch herr hch
      split at hget
      · simp only [Prod.mk.injEq, some.injEq] at hget
        obtain ⟨rfl, rfl⟩ := hget
        by_cases hauto : tokenGroup = "auto"
        · subst hauto
          exact ⟨h.next_auto hretry rfl hch rfl rfl hcur rfl, rfl, rfl⟩
        · have hlookup := h.oneGroup fun hc => hauto hc.1
          subst hlookup
          simp only [cacheGetRandomSatisfiedChannel, h.token, hauto, if_false] at hch herr ⊢
          split at hch
          · cases hch
          · rename_i found heq
            exact ⟨⟨scheduled_of_lookup hauto (by rw [← h.model, heq]; exact hch), 0,
              h.stay _ hretry rfl rfl hcur rfl (fun ha => absurd ha hauto)
                fun ha => absurd ha hauto⟩, trivial, trivial⟩
      · cases hget

end Next

theorem getElem?_concat {α : Type*} {l : List α} {x y : α} {k : ℕ}
    (h : (l ++ [x])[k]? = some y) : l[k]? = some y ∨ k = l.length ∧ y = x := by
  rcases Nat.lt_or_ge k l.length with hlt | hge
  · rw [getElem?_append_left hlt] at h
    exact .inl h
  · rw [getElem?_append_right hge, getElem?_singleton] at h
    split_ifs at h with hk
    exact .inr ⟨by omega, (some.inj h).symm⟩

section Run

variable {env} {userGroup tokenGroup modelName} {crossGroupRetry : Bool} {ranges : List (ℤ × ℤ)}

variable (env) in
theorem relayGetChannel_attempts (l : RelayLoop) (t : Try) :
    (env.relayGetChannel l t).1.attempts = l.attempts := by
  unfold relayGetChannel
  split
  · rfl
  · dsimp only
    split
    · rfl
    · rfl
    · split_ifs <;> rfl

variable (ranges) in
theorem relayPass_eq (t : Try) (hdone : l.done = false) :
    env.relayPass ranges l t = { l with done := true } ∨
      env.relayPass ranges l t = { (env.relayGetChannel l t).1 with done := true } ∨
      ∃ l' a, l.param.retry ≤ env.retryTimes ∧ env.relayGetChannel l t = (l', some a) ∧
        (env.relayPass ranges l t = { logged l' a with done := true } ∨
          env.relayPass ranges l t = advance l' a) := by
  unfold relayPass
  rw [if_neg (by simp [hdone])]
  split
  · exact .inl rfl
  · rename_i hretry
    split
    · rename_i l' hget
      rw [hget]
      exact .inr (.inl rfl)
    · rename_i l' a hget
      split
      · rw [hget]
        exact .inr (.inl rfl)
      · refine .inr (.inr ⟨l', a, by omega, hget, ?_⟩)
        split
        · exact .inl rfl
        · dsimp only
          split
          · exact .inr rfl
          · exact .inl rfl

variable (ranges) in
theorem relayPass_cases (t : Try) (hdone : l.done = false) :
    ((env.relayPass ranges l t).done = true ∧
        (env.relayPass ranges l t).attempts = l.attempts) ∨
      ∃ l' a, l.param.retry ≤ env.retryTimes ∧ env.relayGetChannel l t = (l', some a) ∧
        ((env.relayPass ranges l t).done = true ∧
            (env.relayPass ranges l t).attempts = l'.attempts ++ [a] ∨
          env.relayPass ranges l t = advance l' a) := by
  rcases relayPass_eq ranges t hdone with heq | heq | ⟨l', a, hretry, hget, heq | heq⟩
  · exact .inl (by rw [heq]; exact ⟨rfl, rfl⟩)
  · exact .inl (by rw [heq]; exact ⟨rfl, relayGetChannel_attempts env l t⟩)
  · exact .inr ⟨l', a, hretry, hget, .inl (by rw [heq]; exact ⟨rfl, rfl⟩)⟩
  · exact .inr ⟨l', a, hretry, hget, .inr heq⟩

theorem relayPass_done (t : Try) (h : l.done = true) : env.relayPass ranges l t = l := by
  simp [relayPass, h]

theorem relayRun_done {ts : List Try} (h : l.done = true) :
    (run (env.relayPass ranges) l ts).done = true :=
  run_inv (I := fun l : RelayLoop => l.done = true)
    (fun _ t hl => by rw [relayPass_done t hl]; exact hl) h ts

variable (env userGroup tokenGroup modelName crossGroupRetry) in
/-- The log follows the schedule, and the loop is over or ready for its next pass. -/
structure Walks (l : RelayLoop) : Prop where
  log : ∀ k a, l.attempts[k]? = some a → ∃ q r, k = q * (env.retryTimes + 1) + r ∧
    r ≤ env.retryTimes ∧ env.Scheduled userGroup tokenGroup modelName q r a ∧
    (¬(tokenGroup = "auto" ∧ crossGroupRetry = true) → q = 0)
  ready : l.done = true ∨ ∃ q, env.Ready userGroup tokenGroup modelName crossGroupRetry q l

theorem Walks.pass (hR : 1 ≤ env.retryTimes) {l : RelayLoop}
    (h : env.Walks userGroup tokenGroup modelName crossGroupRetry l) (t : Try) :
    env.Walks userGroup tokenGroup modelName crossGroupRetry (env.relayPass ranges l t) := by
  rcases hdone : l.done with _ | _
  swap
  · rwa [relayPass_done t hdone]
  obtain ⟨q, hready⟩ := h.ready.resolve_left (by simp [hdone])
  rcases relayPass_cases ranges t hdone with
    ⟨hend, hlog⟩ | ⟨l', a, hretry, hget, hpass⟩
  · exact ⟨by rw [hlog]; exact h.log, .inl hend⟩
  · obtain ⟨⟨hsched, q', hnext⟩, hattempts, -⟩ := hready.next hR hretry hget
    have hlog : ∀ k b, (l.attempts ++ [a])[k]? = some b → ∃ q r,
        k = q * (env.retryTimes + 1) + r ∧ r ≤ env.retryTimes ∧
        env.Scheduled userGroup tokenGroup modelName q r b ∧
        (¬(tokenGroup = "auto" ∧ crossGroupRetry = true) → q = 0) := by
      intro k b hb
      rcases getElem?_concat hb with hb | ⟨rfl, rfl⟩
      · exact h.log k b hb
      · exact ⟨q, l.param.retry, hready.count, hretry, hsched, hready.oneGroup⟩
    rcases hpass with ⟨hend, hnew⟩ | hnew
    · exact ⟨by rw [hnew, hattempts]; exact hlog, .inl hend⟩
    · rw [hnew]
      exact ⟨by rw [advance_attempts, hattempts]; exact hlog, .inr ⟨q', hnext⟩⟩

theorem length_of_not_done : ∀ {ts : List Try} {l : RelayLoop},
    (run (env.relayPass ranges) l ts).done = false →
      (run (env.relayPass ranges) l ts).attempts.length = l.attempts.length + ts.length
  | [], l, _ => rfl
  | t :: ts, l, h => by
    rw [run_cons] at h ⊢
    rw [length_of_not_done h, length_cons]
    have hpass : (env.relayPass ranges l t).done = false := by
      by_contra hd
      rw [relayRun_done (by simpa using hd)] at h
      cases h
    have hdone : l.done = false := by
      by_contra hd
      rw [relayPass_done t (by simpa using hd)] at hpass
      exact hd hpass
    rcases relayPass_cases ranges t hdone with
      ⟨hend, -⟩ | ⟨l', a, -, hget, ⟨hend, -⟩ | hnew⟩
    · rw [hend] at hpass
      cases hpass
    · rw [hend] at hpass
      cases hpass
    · have hsame := relayGetChannel_attempts env l t
      rw [hget] at hsame
      rw [hnew, advance_attempts, length_append, length_singleton, hsame]
      omega

theorem Walks.run (hR : 1 ≤ env.retryTimes)
    (h : env.relayStart userGroup tokenGroup modelName crossGroupRetry draw = some l)
    (ts : List Try) : env.Walks userGroup tokenGroup modelName crossGroupRetry
      (AggreApi.run (env.relayPass ranges) l ts) := by
  obtain ⟨hready, hnil, -⟩ := ready_start hR h
  have hstart : env.Walks userGroup tokenGroup modelName crossGroupRetry l :=
    ⟨fun k a hk => absurd hk (by simp [hnil]), .inr ⟨0, hready⟩⟩
  exact run_inv (fun _ t hl => hl.pass hR t) hstart ts

theorem Walks.attempt
    (h : env.Walks userGroup tokenGroup modelName crossGroupRetry l) {k : ℕ} {a : Attempt}
    (hk : l.attempts[k]? = some a) :
    env.Scheduled userGroup tokenGroup modelName (k / (env.retryTimes + 1))
      (k % (env.retryTimes + 1)) a ∧
      (¬(tokenGroup = "auto" ∧ crossGroupRetry = true) → k ≤ env.retryTimes) := by
  obtain ⟨q, r, rfl, hr, hsched, hone⟩ := h.log k a hk
  have hdiv : (q * (env.retryTimes + 1) + r) / (env.retryTimes + 1) = q := by
    rw [Nat.mul_comm, Nat.mul_add_div (by omega), Nat.div_eq_of_lt (by omega), Nat.add_zero]
  have hmod : (q * (env.retryTimes + 1) + r) % (env.retryTimes + 1) = r := by
    rw [Nat.mul_comm, Nat.mul_add_mod, Nat.mod_eq_of_lt (by omega)]
  rw [hdiv, hmod]
  refine ⟨hsched, fun hn => ?_⟩
  rw [hone hn]
  omega

theorem Walks.length_le (h : env.Walks userGroup tokenGroup modelName crossGroupRetry l) :
    l.attempts.length ≤
      (env.servingGroups userGroup tokenGroup modelName).length * (env.retryTimes + 1) := by
  rcases hl : l.attempts.length with _ | n
  · exact Nat.zero_le _
  · have hlt : n < l.attempts.length := by omega
    obtain ⟨q, r, hn, hr, hsched, -⟩ := h.log n _ (getElem?_eq_getElem hlt)
    obtain ⟨hq, -⟩ := List.getElem?_eq_some_iff.1 hsched.1
    calc n + 1 ≤ q * (env.retryTimes + 1) + (env.retryTimes + 1) := by omega
      _ = (q + 1) * (env.retryTimes + 1) := by ring
      _ ≤ _ := Nat.mul_le_mul_right _ hq

end Run

/-- The loop ends after at most `RetryTimes + 1` attempts for each group, never goes back in the
list of groups, stays in one without cross-group retry, and with it makes all attempts in a serving
group, down its levels, before the next. -/
theorem relay_loop_walks_groups (env : SelectEnv) (hR : 1 ≤ env.retryTimes)
    (userGroup tokenGroup modelName : String) (crossGroupRetry : Bool) (draw : ℕ) (l : RelayLoop)
    (hl : env.relayStart userGroup tokenGroup modelName crossGroupRetry draw = some l)
    (ranges : List (ℤ × ℤ)) (ts : List Try) :
    (run (env.relayPass ranges) l ts).attempts.length ≤
        (env.walkedGroups userGroup tokenGroup).length * (env.retryTimes + 1) ∧
      ((env.walkedGroups userGroup tokenGroup).length * (env.retryTimes + 1) < ts.length →
        (run (env.relayPass ranges) l ts).done = true) ∧
      (∃ index : ℕ → ℕ, Monotone index ∧
        ∀ k a, (run (env.relayPass ranges) l ts).attempts[k]? = some a →
          (env.walkedGroups userGroup tokenGroup)[index k]? = some a.group) ∧
      (crossGroupRetry = false → ∀ a ∈ (run (env.relayPass ranges) l ts).attempts,
        ∀ b ∈ (run (env.relayPass ranges) l ts).attempts, a.group = b.group) ∧
      ∀ k a, (run (env.relayPass ranges) l ts).attempts[k]? = some a →
        (env.servingGroups userGroup tokenGroup modelName)[k / (env.retryTimes + 1)]? =
            some a.group ∧
          (a.channel.id, levelAt (env.store.levels a.group modelName)
              (k % (env.retryTimes + 1))) ∈ env.store.candidates a.group modelName := by
  have hw : env.Walks userGroup tokenGroup modelName crossGroupRetry
      (run (env.relayPass ranges) l ts) := Walks.run hR hl ts
  have hserving : (env.servingGroups userGroup tokenGroup modelName).length ≤
      (env.walkedGroups userGroup tokenGroup).length := length_filter_le _ _
  have hlen : (run (env.relayPass ranges) l ts).attempts.length ≤
      (env.walkedGroups userGroup tokenGroup).length * (env.retryTimes + 1) :=
    hw.length_le.trans (Nat.mul_le_mul_right _ hserving)
  refine ⟨hlen, fun hlong => ?_, ?_, fun hcross a ha b hb => ?_, fun k a hk => (hw.attempt hk).1⟩
  · by_contra hdone
    have hcount := length_of_not_done (by simpa using hdone)
    omega
  · have hsub : (env.servingGroups userGroup tokenGroup modelName).Sublist
        (env.walkedGroups userGroup tokenGroup) := filter_sublist
    obtain ⟨f, hf⟩ := sublist_iff_exists_orderEmbedding_getElem?_eq.1 hsub
    refine ⟨fun k => f (k / (env.retryTimes + 1)), fun i j hij => ?_, fun k a hk => ?_⟩
    · exact f.monotone (Nat.div_le_div_right hij)
    · rw [← hf]
      exact (hw.attempt hk).1.1
  · have hfirst : ∀ c ∈ (run (env.relayPass ranges) l ts).attempts,
        (env.servingGroups userGroup tokenGroup modelName)[0]? = some c.group := by
      intro c hc
      obtain ⟨k, hk⟩ := mem_iff_getElem?.1 hc
      obtain ⟨hsched, hone⟩ := hw.attempt hk
      have hle := hone fun hc => by simp [hcross] at hc
      rw [← Nat.div_eq_of_lt (show k < env.retryTimes + 1 by omega)]
      exact hsched.1
    exact Option.some.inj ((hfirst a ha).symm.trans (hfirst b hb))

def sampleTable : Table Channel.id :=
  ((((⟨[], nodup_nil⟩ : Table Channel.id).insert
    { id := 1, models := "m", group := "A", priority := some 1 }).insert
    { id := 2, models := "m", group := "A", priority := some 0 }).insert
    { id := 3, models := "m", group := "B", priority := some 1 }).insert
    { id := 4, models := "m", group := "B", priority := some 0 }

def sampleRows : List Ability :=
  [⟨"A", "m", 1, true, 1, 0⟩, ⟨"A", "m", 2, true, 0, 0⟩, ⟨"B", "m", 3, true, 1, 0⟩,
    ⟨"B", "m", 4, true, 0, 0⟩]

def sampleEnv : SelectEnv where
  setting := { userUsableGroups := [("A", ""), ("B", "")], autoGroups := ["A", "B"] }
  store := (ChannelStore.start sampleTable sampleRows).initChannelCache fun _ => none
  retryTimes := 3

theorem sampleEnv_start : (sampleEnv.relayStart "" "auto" "m" true 0).isSome = true := by
  decide

def sampleLoop : RelayLoop := (sampleEnv.relayStart "" "auto" "m" true 0).get sampleEnv_start

def sampleTries (n : ℕ) : List Try := List.replicate n { answer := some {} }

theorem relay_loop_walks_groups_sample :
    (run (sampleEnv.relayPass defaultRetryRanges) sampleLoop (sampleTries 9)).done = true ∧
      (run (sampleEnv.relayPass defaultRetryRanges) sampleLoop (sampleTries 9)).attempts.length ≤
        (sampleEnv.walkedGroups "" "auto").length * (sampleEnv.retryTimes + 1) :=
  ⟨by decide, (relay_loop_walks_groups sampleEnv (by decide) "" "auto" "m" true 0 sampleLoop
    (Option.some_get _).symm defaultRetryRanges (sampleTries 9)).1⟩

end SelectEnv

end AggreApi
