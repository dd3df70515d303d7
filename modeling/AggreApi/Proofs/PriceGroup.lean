import AggreApi.Distribute
import AggreApi.Proofs.RelayRetry

/-!
# The price group

A selection in an automatic group puts that group into the context, where the pricing finds it; any
other selection is made in the using group. The one that does neither is the wallet fallback: its
channel is of the default group while the price is that of the using group.
-/

namespace AggreApi

open Option

variable {draw : ℕ} {ctx : SelectContext} {sel : Selection} {modelName : String}
  {affinity : Affinity} {a : Attempt} {entry : RelayEntry} {l : RelayLoop}

namespace SelectEnv

variable {env : SelectEnv}

theorem searchAutoGroups_context {start : ℕ} : ∀ {groups : List String} {i : ℕ}
    {ctx : SelectContext} {param : RetryParam},
    let sel := env.searchAutoGroups start draw i groups ctx param
    sel.param.tokenGroup = param.tokenGroup ∧
      (sel.channel = none → sel.ctx.autoGroup = ctx.autoGroup) ∧
      (sel.channel ≠ none → sel.err = none ∧ sel.ctx.autoGroup = some sel.selectGroup)
  | [], i, ctx, param => ⟨rfl, fun _ => rfl, fun h => absurd rfl h⟩
  | g :: groups, i, ctx, param => by
    dsimp only
    unfold searchAutoGroups
    dsimp only
    generalize (if start < i then 0 else param.retry) = priorityRetry
    split
    · exact searchAutoGroups_context
    · split <;> exact ⟨rfl, fun h => absurd h (by simp), fun _ => ⟨rfl, rfl⟩⟩

variable {param : RetryParam}

theorem select_auto_context
    (h : env.cacheGetRandomSatisfiedChannel ctx param draw = sel)
    (hauto : param.tokenGroup = "auto") :
    sel.param.tokenGroup = param.tokenGroup ∧
      (sel.channel = none → sel.ctx.autoGroup = ctx.autoGroup) ∧
      (sel.channel ≠ none → sel.err = none ∧ sel.ctx.autoGroup = some sel.selectGroup) := by
  subst h
  unfold cacheGetRandomSatisfiedChannel
  rw [if_pos hauto]
  split_ifs
  · exact ⟨rfl, fun _ => rfl, fun h => absurd rfl h⟩
  · exact searchAutoGroups_context

theorem select_plain
    (h : env.cacheGetRandomSatisfiedChannel ctx param draw = sel)
    (hauto : param.tokenGroup ≠ "auto") :
    sel.ctx = ctx ∧ sel.param = param ∧ sel.selectGroup = param.tokenGroup ∧
      (sel.channel ≠ none → sel.err = none) := by
  subst h
  unfold cacheGetRandomSatisfiedChannel
  rw [if_neg hauto]
  split
  · exact ⟨rfl, rfl, rfl, fun h => absurd rfl h⟩
  · exact ⟨rfl, rfl, rfl, fun _ => rfl⟩

/-- The request gets its channel by affinity or in its using group. -/
def servedInOwnGroup (env : SelectEnv) (entry : RelayEntry) (modelName : String)
    (affinity : Affinity)
    (draw : ℕ) : Bool :=
  match env.affinitySelect (distributeContext entry affinity) entry.usingGroup modelName
      affinity with
  | none => false
  | some (some _) => true
  | some none => (env.ownSelect entry modelName affinity draw).err.isNone &&
      (env.ownSelect entry modelName affinity draw).channel.isSome

def startGroup (entry : RelayEntry) (d : Distributed) : String :=
    d.ctx.autoGroup.getD entry.usingGroup

theorem affinitySelect_group {ctx' : SelectContext} {usingGroup : String}
    (hctx : ctx.autoGroup = none)
    (h : env.affinitySelect ctx usingGroup modelName affinity = some (some (ctx', a))) :
    ctx'.autoGroup.getD usingGroup = a.group ∧ (usingGroup ≠ "auto" → ctx'.autoGroup = none) := by
  unfold affinitySelect at h
  split at h
  · cases h
  · split_ifs at h with hst hskip hauto hlisted
    · cases h
    · split at h
      · simp only [some.injEq, Prod.mk.injEq] at h
        obtain ⟨rfl, rfl⟩ := h
        exact ⟨rfl, fun hne => absurd hauto hne⟩
      · cases h
    · simp only [some.injEq, Prod.mk.injEq] at h
      obtain ⟨rfl, rfl⟩ := h
      rw [hctx]
      exact ⟨rfl, fun _ => rfl⟩
    · cases h

theorem ownSelect_group (h : env.ownSelect entry modelName affinity draw = sel) :
    (sel.channel ≠ none → sel.err = none ∧
        sel.ctx.autoGroup.getD entry.usingGroup = sel.selectGroup) ∧
      (sel.channel = none → sel.ctx.autoGroup = none) ∧
      (entry.usingGroup ≠ "auto" → sel.ctx.autoGroup = none) := by
  by_cases hauto : entry.usingGroup = "auto"
  · obtain ⟨-, hnone, hsome⟩ := select_auto_context h hauto
    exact ⟨fun hch => ⟨(hsome hch).1, by rw [(hsome hch).2]; rfl⟩, hnone,
      fun hne => absurd hauto hne⟩
  · obtain ⟨hctx, -, hgroup, herr⟩ := select_plain h hauto
    rw [hctx, hgroup]
    exact ⟨fun hch => ⟨herr hch, rfl⟩, fun _ => rfl, fun _ => rfl⟩

variable {fallback : Bool} {fallbackDraw : ℕ} {d : Distributed}

theorem distribute_group
    (h : env.distribute entry modelName affinity fallback draw fallbackDraw = some d) :
    (if env.servedInOwnGroup entry modelName affinity draw then
        startGroup entry d = d.attempt.group
      else startGroup entry d = entry.usingGroup ∧ d.attempt.group = "default") ∧
      (entry.usingGroup ≠ "auto" → d.ctx.autoGroup = none) := by
  unfold distribute at h
  split at h
  · cases h
  split at h
  · cases h
  unfold servedInOwnGroup
  split at h
  · cases h
  · rename_i ctx a haff
    cases h
    rw [haff]
    obtain ⟨hgroup, hnone⟩ := affinitySelect_group rfl haff
    exact ⟨hgroup, hnone⟩
  · rename_i haff
    rw [haff]
    dsimp only at h ⊢
    generalize hsel : env.ownSelect entry modelName affinity draw = sel at h ⊢
    obtain ⟨hown, hnone, hplain⟩ := ownSelect_group hsel
    split at h
    · rename_i ch herr hch
      cases h
      rw [herr, hch]
      exact ⟨(hown (by rw [hch]; simp)).2, hplain⟩
    · rename_i hfail
      split_ifs at h
      generalize hfb : env.cacheGetRandomSatisfiedChannel sel.ctx
        { tokenGroup := "default", modelName } fallbackDraw = fb at h
      obtain ⟨hctx, -, hgroup, -⟩ := select_plain hfb (by simp)
      split at h
      · rename_i ch herr hch
        cases h
        have hlost : sel.channel = none := by
          by_contra hne
          obtain ⟨c, hc⟩ := ne_none_iff_exists'.1 hne
          exact hfail c (hown hne).1 hc
        simp only [startGroup, hctx, hnone hlost, hlost, hgroup, isSome_none,
          Bool.and_false, Bool.false_eq_true, if_false, getD_none]
        exact ⟨⟨trivial, trivial⟩, fun _ => trivial⟩
      · cases h

structure Priced (setting : GroupSetting) (tokenGroup userGroup : String) (first : Attempt)
    (entered : GroupRatioInfo) (l : RelayLoop) : Prop where
  token : l.param.tokenGroup = tokenGroup
  user : l.info.userGroup = userGroup
  plain : tokenGroup ≠ "auto" → l.ctx.autoGroup = none ∧ l.info.usingGroup = tokenGroup
  lengths : l.prices.length = l.attempts.length
  start : ∀ a, l.current = some a →
    l.attempts = [] ∧ a = first ∧ l.info.groupRatioInfo = entered
  begun : l.current = none → l.attempts ≠ [] ∨ l.done = true
  head : ∀ a r, l.attempts[0]? = some a → l.prices[0]? = some r → a = first ∧ r = entered
  later : ∀ k a r, l.attempts[k + 1]? = some a → l.prices[k + 1]? = some r →
    r = setting.ratioInfo userGroup a.group

section Later

variable {tokenGroup userGroup : String} {first : Attempt} {entered : GroupRatioInfo}
  {ranges : List (ℤ × ℤ)}

theorem increaseRetry_tokenGroup (p : RetryParam) : p.increaseRetry.tokenGroup = p.tokenGroup := by
  unfold RetryParam.increaseRetry
  split_ifs <;> rfl

theorem handleGroupRatio_select {ctx : SelectContext} {param : RetryParam} {draw : ℕ}
    {sel : Selection} {info : PriceInfo}
    (h : env.cacheGetRandomSatisfiedChannel ctx param draw = sel)
    (hplain : param.tokenGroup ≠ "auto" →
      ctx.autoGroup = none ∧ info.usingGroup = param.tokenGroup) :
    sel.param.tokenGroup = param.tokenGroup ∧
      (param.tokenGroup ≠ "auto" → sel.ctx.autoGroup = none ∧
        (handleGroupRatio env.setting sel.ctx info).usingGroup = param.tokenGroup) ∧
      (sel.channel ≠ none → (handleGroupRatio env.setting sel.ctx info).groupRatioInfo =
        env.setting.ratioInfo info.userGroup sel.selectGroup) := by
  by_cases hauto : param.tokenGroup = "auto"
  · obtain ⟨htoken, -, hsome⟩ := select_auto_context h hauto
    refine ⟨htoken, fun hne => absurd hauto hne, fun hch => ?_⟩
    simp [handleGroupRatio, (hsome hch).2]
  · obtain ⟨hctx, hparam, hgroup, -⟩ := select_plain h hauto
    obtain ⟨hnone, husing⟩ := hplain hauto
    simp only [handleGroupRatio, hctx, hparam, hgroup, hnone, husing, getD_none]
    exact ⟨trivial, fun _ => ⟨trivial, trivial⟩, fun _ => trivial⟩

theorem Priced.logged
    (h : Priced env.setting tokenGroup userGroup first entered l) (hbegun : l.attempts ≠ [])
    (hprice : l.info.groupRatioInfo = env.setting.ratioInfo userGroup a.group) :
    Priced env.setting tokenGroup userGroup first entered (SelectEnv.logged l a) := by
  have hpos := List.length_pos_iff.2 hbegun
  refine ⟨h.token, h.user, h.plain, ?_, fun b hb => absurd (h.start b hb).1 hbegun,
    fun _ => .inl (by simp [SelectEnv.logged]), fun b r hb hr => ?_, fun k b r hb hr => ?_⟩
  · simp [SelectEnv.logged, h.lengths]
  · rcases getElem?_concat hb with hb | ⟨hk, -⟩
    · rcases getElem?_concat hr with hr | ⟨hk, -⟩
      · exact h.head b r hb hr
      · have := h.lengths
        omega
    · omega
  · have hlen := h.lengths
    rcases getElem?_concat hb with hb | ⟨hk, rfl⟩
    · obtain ⟨hlt, -⟩ := List.getElem?_eq_some_iff.1 hb
      rcases getElem?_concat hr with hr | ⟨hk, -⟩
      · exact h.later k b r hb hr
      · omega
    · rcases getElem?_concat hr with hr | ⟨-, rfl⟩
      · obtain ⟨hlt, -⟩ := List.getElem?_eq_some_iff.1 hr
        omega
      · exact hprice

theorem Priced.logged_first
    (h : Priced env.setting tokenGroup userGroup first entered l) (hcur : l.current = some a) :
    Priced env.setting tokenGroup userGroup first entered
      (SelectEnv.logged { l with current := none } a) := by
  obtain ⟨hnil, rfl, hprice⟩ := h.start a hcur
  have hprices : l.prices = [] := List.length_eq_zero_iff.1 (by rw [h.lengths, hnil]; rfl)
  refine ⟨h.token, h.user, h.plain, ?_, fun b hb => absurd hb (by simp [SelectEnv.logged]),
    fun _ => .inl (by simp [SelectEnv.logged]), fun b r hb hr => ?_, fun k b r hb hr => ?_⟩
  · simp [SelectEnv.logged, h.lengths]
  · simp only [SelectEnv.logged, hnil, hprices, List.nil_append, List.getElem?_cons_zero,
      some.injEq] at hb hr
    exact ⟨hb.symm, hr.symm.trans hprice⟩
  · simp [SelectEnv.logged, hnil] at hb

theorem Priced.ended (h : Priced env.setting tokenGroup userGroup first entered l) :
    Priced env.setting tokenGroup userGroup first entered { l with done := true } :=
  { h with begun := fun _ => .inr rfl }

theorem Priced.advanced
    (h : Priced env.setting tokenGroup userGroup first entered (SelectEnv.logged l a)) :
    Priced env.setting tokenGroup userGroup first entered (advance l a) :=
  { h with token := (increaseRetry_tokenGroup l.param).trans h.token }

theorem Priced.selected {l : RelayLoop} {draw : ℕ} {sel : Selection}
    (h : Priced env.setting tokenGroup userGroup first entered l)
    (hsel : env.cacheGetRandomSatisfiedChannel l.ctx l.param draw = sel)
    (hcur : l.current = none) :
    Priced env.setting tokenGroup userGroup first entered
        { l with
          ctx := sel.ctx, param := sel.param, info := handleGroupRatio
            env.setting sel.ctx l.info } ∧
      (sel.channel ≠ none → (handleGroupRatio env.setting sel.ctx l.info).groupRatioInfo =
        env.setting.ratioInfo userGroup sel.selectGroup) := by
  obtain ⟨htoken, hplain, hprice⟩ := @handleGroupRatio_select env l.ctx l.param draw sel l.info hsel
    (fun hne => by rw [h.token] at hne ⊢; exact h.plain hne)
  rw [h.user] at hprice
  refine ⟨{ h with
    token := htoken.trans h.token
    user := h.user
    plain := fun hne => by rw [h.token] at hplain; exact hplain hne
    start := fun a ha => by rw [hcur] at ha; cases ha }, hprice⟩

theorem relayGetChannel_retry {l : RelayLoop} {t : Try} {sel : Selection} (hcur : l.current = none)
    (hsel : env.cacheGetRandomSatisfiedChannel l.ctx l.param t.draw = sel) :
    (env.relayGetChannel l t).1 = { l with
        ctx := sel.ctx, param := sel.param, info := handleGroupRatio env.setting sel.ctx l.info } ∧
      ∀ a, (env.relayGetChannel l t).2 = some a →
        sel.channel ≠ none ∧ a.group = sel.selectGroup := by
  unfold relayGetChannel
  rw [hcur]
  dsimp only
  rw [hsel]
  split
  · exact ⟨rfl, fun a ha => absurd ha (by simp)⟩
  · exact ⟨rfl, fun a ha => absurd ha (by simp)⟩
  · rename_i ch herr hch
    split_ifs
    · exact ⟨rfl, fun a ha => ⟨by rw [hch]; simp, by rw [← some.inj ha]⟩⟩
    · exact ⟨rfl, fun a ha => absurd ha (by simp)⟩

theorem Priced.pass {l : RelayLoop} (t : Try)
    (h : Priced env.setting tokenGroup userGroup first entered l) :
    Priced env.setting tokenGroup userGroup first entered (env.relayPass ranges l t) := by
  rcases hdone : l.done with _ | _
  swap
  · rwa [relayPass_done t hdone]
  rcases relayPass_eq ranges t hdone with heq | heq | ⟨l', a, -, hget, heq⟩
  · rw [heq]
    exact h.ended
  · rw [heq]
    rcases hcur : l.current with _ | a
    · rw [(relayGetChannel_retry hcur rfl).1]
      exact (h.selected rfl hcur).1.ended
    · simp only [relayGetChannel, hcur]
      exact { h with start := fun b hb => absurd hb (by simp), begun := fun _ => .inr rfl }
  · have hlog : Priced env.setting tokenGroup userGroup first entered (SelectEnv.logged l' a) := by
      rcases hcur : l.current with _ | b
      · obtain ⟨hfst, hsnd⟩ := @relayGetChannel_retry env l t _ hcur rfl
        rw [hget] at hfst hsnd
        obtain ⟨hch, hgroup⟩ := hsnd a rfl
        obtain ⟨hsel, hprice⟩ := @Priced.selected env _ _ _ _ l t.draw _ h rfl hcur
        dsimp only at hfst
        rw [hfst]
        refine hsel.logged ((h.begun hcur).resolve_right (by simp [hdone])) ?_
        rw [hgroup]
        exact hprice hch
      · simp only [relayGetChannel, hcur, Prod.mk.injEq, some.injEq] at hget
        obtain ⟨rfl, rfl⟩ := hget
        exact h.logged_first hcur
    rcases heq with heq | heq
    · rw [heq]
      exact hlog.ended
    · rw [heq]
      exact hlog.advanced

end Later

theorem priced_enter
    (h : env.distribute entry modelName affinity fallback draw fallbackDraw = some d)
    (hgroup : entry.relayTokenGroup = entry.usingGroup) :
    Priced env.setting entry.relayTokenGroup entry.relayUserGroup d.attempt
      (env.setting.ratioInfo entry.relayUserGroup (startGroup entry d))
      (env.relayEnter entry modelName d) := by
  obtain ⟨-, hplain⟩ := distribute_group h
  refine ⟨rfl, rfl, fun hne => ?_, rfl, fun a ha => ?_, fun hn => absurd hn (by simp [relayEnter]),
    fun a r ha => absurd ha (by simp [relayEnter]), fun k a r ha => absurd ha
      (by simp [relayEnter])⟩
  · have hnone := hplain (hgroup ▸ hne)
    simp [relayEnter, handleGroupRatio, hnone, hgroup]
  · simp only [relayEnter, some.injEq] at ha
    exact ⟨rfl, ha.symm, rfl⟩

/-- The pre-charge is at the price of the group of the channel exactly where the request is served
in its own group or the default group costs the same; and so is every later attempt, where retries
select in the using group. -/
theorem price_group_iff (env : SelectEnv) (entry : RelayEntry) (modelName : String)
    (affinity : Affinity) (fallback : Bool) (draw fallbackDraw : ℕ) (d : Distributed)
    (h : env.distribute entry modelName affinity fallback draw fallbackDraw = some d)
    (ranges : List (ℤ × ℤ)) :
    ((env.relayEnter entry modelName d).info.groupRatioInfo =
        env.setting.ratioInfo entry.relayUserGroup d.attempt.group ↔
      env.servedInOwnGroup entry modelName affinity draw = true ∨
        env.setting.ratioInfo entry.relayUserGroup entry.usingGroup =
          env.setting.ratioInfo entry.relayUserGroup "default") ∧
      (entry.relayTokenGroup = entry.usingGroup →
        (env.servedInOwnGroup entry modelName affinity draw = true ∨
          env.setting.ratioInfo entry.relayUserGroup entry.usingGroup =
            env.setting.ratioInfo entry.relayUserGroup "default") →
        ∀ (es : List (ChannelStore × Try)) (k : ℕ) (a : Attempt) (r : GroupRatioInfo),
          (run (env.relayPassAt ranges) (env.relayEnter entry modelName d) es).attempts[k]? =
            some a →
          (run (env.relayPassAt ranges) (env.relayEnter entry modelName d) es).prices[k]? =
            some r →
          r = env.setting.ratioInfo entry.relayUserGroup a.group) := by
  obtain ⟨hgroup, -⟩ := distribute_group h
  have hfirst : env.setting.ratioInfo entry.relayUserGroup (startGroup entry d) =
        env.setting.ratioInfo entry.relayUserGroup d.attempt.group ↔
      env.servedInOwnGroup entry modelName affinity draw = true ∨
        env.setting.ratioInfo entry.relayUserGroup entry.usingGroup =
          env.setting.ratioInfo entry.relayUserGroup "default" := by
    split_ifs at hgroup with hown
    · rw [hgroup]
      exact ⟨fun _ => .inl hown, fun _ => rfl⟩
    · rw [hgroup.1, hgroup.2]
      exact ⟨.inr, fun hc => hc.resolve_left hown⟩
  refine ⟨hfirst, fun htoken hcond es k a r ha hr => ?_⟩
  have hpriced : Priced env.setting entry.relayTokenGroup entry.relayUserGroup d.attempt
      (env.setting.ratioInfo entry.relayUserGroup (startGroup entry d))
      (run (env.relayPassAt ranges) (env.relayEnter entry modelName d) es) :=
    run_inv (fun l e hl => @Priced.pass { env with store := e.1 } _ _ _ _ ranges l e.2 hl)
      (priced_enter h htoken) es
  rcases k with _ | k
  · obtain ⟨rfl, rfl⟩ := hpriced.head a r ha hr
    exact hfirst.2 hcond
  · exact hpriced.later k a r ha hr

def sampleDefaultOnly : SelectEnv where
  setting :=
    { userUsableGroups := [("default", ""), ("vip", ""), ("auto", "")], autoGroups := ["vip"]
      groupRatio := [("default", 2), ("vip", 1)] }
  store := (ChannelStore.start
    ((⟨[], List.nodup_nil⟩ : Table Channel.id).insert { id := 1, models := "m" })
    [⟨"default", "m", 1, true, 0, 0⟩]).initChannelCache fun _ => none
  retryTimes := 1

/-- A subscriber of the group `vip` and one with an automatic token are served by the default group
and pay half its price. -/
theorem fallback_priced_by_using_group :
    ((sampleDefaultOnly.distribute (.token "vip" "" false) "m" {} true 0 0).map fun d =>
      (d.attempt.group, (sampleDefaultOnly.relayEnter (.token "vip" "" false) "m"
        d).info.groupRatioInfo.groupRatio)) = some ("default", 1) ∧
    ((sampleDefaultOnly.distribute (.token "vip" "auto" true) "m" {} true 0 0).map fun d =>
      (d.attempt.group, (sampleDefaultOnly.relayEnter (.token "vip" "auto" true) "m"
        d).info.groupRatioInfo.groupRatio)) = some ("default", 1) ∧
    (sampleDefaultOnly.setting.ratioInfo "vip" "default").groupRatio = 2 := by
  decide

theorem sampleDefaultOnly_served :
    (sampleDefaultOnly.distribute (.token "vip" "default" false) "m" {} true 0
    0).isSome = true := by
  decide

theorem price_group_iff_sample : (sampleDefaultOnly.relayEnter (.token "vip" "default" false) "m"
        ((sampleDefaultOnly.distribute (.token "vip" "default" false) "m" {} true 0 0).get
          sampleDefaultOnly_served)).info.groupRatioInfo =
      sampleDefaultOnly.setting.ratioInfo "vip"
        ((sampleDefaultOnly.distribute (.token "vip" "default" false) "m" {} true 0 0).get
          sampleDefaultOnly_served).attempt.group :=
  (price_group_iff sampleDefaultOnly (.token "vip" "default" false) "m" {} true 0 0 _
    (Option.some_get _).symm []).1.2 (.inl (by decide))

end SelectEnv

end AggreApi
