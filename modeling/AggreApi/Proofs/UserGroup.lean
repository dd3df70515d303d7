import AggreApi.UserGroup
import AggreApi.Proofs.Text

/-!
# Groups and subscriptions

What a run, an administrator's cancellation and a purchase make of the group of a user: when the
group follows the active subscriptions, and when the cached group is the stored one.
-/

namespace AggreApi

open List GroupSubscription Function

variable {sub : GroupSubscription} {done : GroupDb} {target : String}

namespace GroupEnv

variable (env : GroupEnv)

/-- A name without space around it, and not empty. -/
def Named (g : String) : Prop := trimSpace g = g ∧ g ≠ ""

theorem better_some {g : String} (hg : Named g) (b : String) :
    env.better (some b) g = some (if env.groupRank g < env.groupRank b then g else b) := by
  unfold better
  simp only [hg.1, if_neg hg.2]
  split_ifs <;> rfl

theorem foldl_better : ∀ (gs : List String) (b : String), (∀ g ∈ gs, Named g) →
    ∃ c ∈ b :: gs, gs.foldl env.better (some b) = some c ∧
      ∀ g ∈ b :: gs, env.groupRank c ≤ env.groupRank g
  | [], b, _ => ⟨b, mem_cons_self, rfl, by simp⟩
  | g :: gs, b, h => by
    obtain ⟨c, hc, hfold, hmin⟩ := foldl_better gs
      (if env.groupRank g < env.groupRank b then g else b)
      fun x hx => h x (mem_cons_of_mem _ hx)
    refine ⟨c, ?_, by rw [foldl_cons, better_some env (h g mem_cons_self), hfold], ?_⟩
    · rcases mem_cons.1 hc with rfl | hc
      · split_ifs <;> simp
      · exact mem_cons_of_mem _ (mem_cons_of_mem _ hc)
    · have hfirst := hmin _ mem_cons_self
      intro x hx
      rcases mem_cons.1 hx with rfl | hx
      · split_ifs at hfirst <;> omega
      rcases mem_cons.1 hx with rfl | hx
      · split_ifs at hfirst <;> omega
      · exact hmin x (mem_cons_of_mem _ hx)

theorem resolveUserGroupFromActive_mem {gs : List String} (h : ∀ g ∈ gs, Named g) (hne : gs ≠ []) :
    env.resolveUserGroupFromActive gs ∈ gs ∧
      ∀ g ∈ gs, env.groupRank (env.resolveUserGroupFromActive gs) ≤ env.groupRank g := by
  obtain ⟨g, gs', rfl⟩ := exists_cons_of_ne_nil hne
  have hg := h g mem_cons_self
  have hbetter : env.better none g = some g := by
    unfold better
    simp [hg.1, if_neg hg.2]
  obtain ⟨c, hc, hfold, hmin⟩ := env.foldl_better gs' g fun x hx => h x (mem_cons_of_mem _ hx)
  have hresolve : env.resolveUserGroupFromActive (g :: gs') = c := by
    rw [resolveUserGroupFromActive, foldl_cons, hbetter, hfold, Option.getD_some]
  rw [hresolve]
  exact ⟨hc, hmin⟩

theorem better_ne_empty {best : Option String} (h : best ≠ some "") (g : String) :
    env.better best g ≠ some "" := by
  unfold better
  dsimp only
  split_ifs with ht
  · exact h
  · split
    · simpa using ht
    · split_ifs
      · simpa using ht
      · exact h

theorem resolveUserGroupFromActive_ne_empty (gs : List String) :
    env.resolveUserGroupFromActive gs ≠ "" := by
  have hfold : ∀ (gs : List String) (best : Option String), best ≠ some "" →
      gs.foldl env.better best ≠ some "" := by
    intro gs
    induction gs with
    | nil => exact fun best h => h
    | cons g _ ih =>
      intro best h
      rw [foldl_cons]
      exact ih (env.better best g) (env.better_ne_empty h g)
  have h := hfold gs none (by simp)
  unfold resolveUserGroupFromActive
  rcases hbest : gs.foldl env.better none with _ | b
  · simp [commonUserGroupDefault]
  · rw [hbest] at h
    simpa using h

end GroupEnv

namespace GroupDb

section Expire

variable (env : GroupEnv) (db : GroupDb) (now : ℤ)

theorem upgrades_expireFor (s : GroupSubscription) (v u x : ℕ) :
    (s.expireFor v now).upgrades u now x = s.upgrades u now x := by
  unfold expireFor
  split_ifs with hs
  · obtain ⟨-, hdue⟩ := hs
    simp only [due, decide_eq_true_eq] at hdue
    have hend : ¬now < s.endTime := by omega
    simp [upgrades, hend]
  · rfl

theorem upgradeGroup_expireFor (s : GroupSubscription) (v : ℕ) :
    (s.expireFor v now).upgradeGroup = s.upgradeGroup := by
  unfold expireFor
  split_ifs <;> rfl

theorem markExpired_activeUpgradeGroups (v u x : ℕ) :
    (db.markExpired v now).activeUpgradeGroups u now x = db.activeUpgradeGroups u now x := by
  simp [activeUpgradeGroups, markExpired, Table.map, filter_map, comp_def,
    upgrades_expireFor, upgradeGroup_expireFor]

@[simp] theorem expireUser_subs (v : ℕ) :
    (db.expireUser env now v).subs = (db.markExpired v now).subs := by
  unfold expireUser
  dsimp only
  split_ifs <;> rfl

@[simp] theorem expireUser_activeUpgradeGroups (v u x : ℕ) :
    (db.expireUser env now v).activeUpgradeGroups u now x = db.activeUpgradeGroups u now x := by
  rw [← markExpired_activeUpgradeGroups db now v u x, activeUpgradeGroups, expireUser_subs,
    activeUpgradeGroups]

theorem expireUser_remainingGroup (v u x : ℕ) :
    (db.expireUser env now v).remainingGroup env u now x = db.remainingGroup env u now x := by
  rw [remainingGroup, expireUser_activeUpgradeGroups, remainingGroup]

theorem expireUser_group (v u : ℕ) : (db.expireUser env now v).group u =
      if u = v then db.remainingGroup env u now 0 else db.group u := by
  have htarget : (db.markExpired v now).remainingGroup env v now 0 =
      db.remainingGroup env v now 0 := by
    rw [remainingGroup, markExpired_activeUpgradeGroups, remainingGroup]
  unfold expireUser
  dsimp only
  rw [htarget]
  by_cases hu : u = v
  · subst hu
    rw [if_pos rfl]
    split_ifs with h
    · exact h.symm
    · simp [updateUserGroupCache, setGroup]
  · rw [if_neg hu]
    split_ifs
    · rfl
    · simp [updateUserGroupCache, setGroup, hu, markExpired]

theorem foldl_expire_fst : ∀ (users : List ℕ) (r : GroupDb × ℕ), (users.foldl (fun r userId =>
      (r.1.expireUser env now userId, r.2 + r.1.expiredCount userId now)) r).1 =
      users.foldl (expireUser env now) r.1
  | [], _ => rfl
  | _ :: users, _ => foldl_expire_fst users _

theorem foldl_expireUser_group (u : ℕ) : ∀ (users : List ℕ) (db : GroupDb),
    (users.foldl (expireUser env now) db).group u =
      if u ∈ users then db.remainingGroup env u now 0 else db.group u
  | [], db => by simp
  | v :: users, db => by
    rw [foldl_cons, foldl_expireUser_group u users, expireUser_remainingGroup,
      expireUser_group]
    by_cases hv : u = v <;> simp [hv]

theorem foldl_expireUser_activeUpgradeGroups (u x : ℕ) : ∀ (users : List ℕ) (db : GroupDb),
    (users.foldl (expireUser env now) db).activeUpgradeGroups u now x =
      db.activeUpgradeGroups u now x
  | [], db => rfl
  | v :: users, db => by
    rw [foldl_cons, foldl_expireUser_activeUpgradeGroups u x users,
      expireUser_activeUpgradeGroups]

theorem expireDueSubscriptions_group (limit : ℤ) (u : ℕ) :
    (expireDueSubscriptions env db limit now).1.group u =
      if u ∈ db.batchUsers now limit then db.remainingGroup env u now 0 else db.group u := by
  rw [expireDueSubscriptions, foldl_expire_fst, foldl_expireUser_group]

theorem expireDueSubscriptions_activeUpgradeGroups (limit : ℤ) (u x : ℕ) :
    (expireDueSubscriptions env db limit now).1.activeUpgradeGroups u now x =
      db.activeUpgradeGroups u now x := by
  rw [expireDueSubscriptions, foldl_expire_fst, foldl_expireUser_activeUpgradeGroups]

end Expire

section Admin

variable {env : GroupEnv} {db : GroupDb} {now : ℤ} {id : ℕ}

structure Ended (db : GroupDb) (sub : GroupSubscription) (target : String)
    (subs : Table fun s : GroupSubscription => s.id) (done : GroupDb) : Prop where
  subs : done.subs = subs
  group : done.group =
    if trimSpace sub.upgradeGroup = "" then db.group
    else update db.group sub.userId target
  cache : done.cache =
    if trimSpace sub.upgradeGroup = "" ∨ target = db.group sub.userId then db.cache
    else update db.cache sub.userId ((db.cache sub.userId).map fun _ => target)

theorem id_of_find (h : db.subs.find id = some sub) : sub.id = id := by
  have hkey := Table.key_of_find h
  exact hkey

theorem announce_downgrade
    (h : downgradeUserGroupForSubscription env db sub now = .ok (done, target))
    (subs : Table fun s : GroupSubscription => s.id) :
    Ended db sub (db.remainingGroup env sub.userId now sub.id) subs
      ({ done with subs := subs }.announce sub.userId target).1 := by
  unfold downgradeUserGroupForSubscription at h
  dsimp only at h
  split_ifs at h with hblank huser hsame
  · obtain ⟨rfl, rfl⟩ := Prod.mk.inj (Except.ok.inj h)
    exact ⟨rfl, by rw [if_pos hblank]; rfl, by rw [if_pos (.inl hblank)]; rfl⟩
  · obtain ⟨rfl, rfl⟩ := Prod.mk.inj (Except.ok.inj h)
    refine ⟨rfl, ?_, by rw [if_pos (.inr hsame)]; rfl⟩
    rw [if_neg hblank, hsame, update_eq_self]
    rfl
  · obtain ⟨rfl, rfl⟩ := Prod.mk.inj (Except.ok.inj h)
    have hne : db.remainingGroup env sub.userId now sub.id ≠ "" :=
      env.resolveUserGroupFromActive_ne_empty _
    unfold announce
    rw [if_neg hne, if_pos (Nat.pos_of_ne_zero huser)]
    exact ⟨rfl, by rw [if_neg hblank]; rfl, by rw [if_neg (not_or.2 ⟨hblank, hsame⟩)]; rfl⟩

theorem not_upgrades_excluded {s : GroupSubscription} {x : ℕ} (hx : 0 < x) (hs : s.id = x) (u : ℕ) :
    s.upgrades u now x = false := by
  simp [upgrades, hs, hx]

theorem cancel_activeUpgradeGroups (hid : 0 < sub.id) (u : ℕ) :
    (db.cancel sub now).activeUpgradeGroups u now sub.id =
      db.activeUpgradeGroups u now sub.id := by
  unfold activeUpgradeGroups cancel Table.put Table.map
  dsimp only
  rw [filter_map, map_map]
  have hfilter : ∀ r ∈ db.subs.rows,
      ((fun s : GroupSubscription => s.upgrades u now sub.id) ∘ fun r : GroupSubscription =>
        if r.id = sub.id then { sub with status := .cancelled, endTime := now } else r) r =
      r.upgrades u now sub.id := by
    intro r _
    rw [comp_apply]
    split_ifs with hr
    · rw [not_upgrades_excluded hid hr]
      simp [upgrades]
    · rfl
  rw [filter_congr hfilter]
  refine map_congr_left fun r hr => ?_
  have hne : r.id ≠ sub.id := by
    intro h
    rw [mem_filter, not_upgrades_excluded hid h] at hr
    cases hr.2
  rw [comp_apply, if_neg hne]

theorem cancel_remainingGroup (hid : 0 < sub.id) (u : ℕ) :
    (db.cancel sub now).remainingGroup env u now sub.id = db.remainingGroup env u now sub.id := by
  rw [remainingGroup, cancel_activeUpgradeGroups hid, remainingGroup]

theorem userId_of_downgrade_error {err : String}
    (h : downgradeUserGroupForSubscription env db sub now = .error err) : sub.userId = 0 := by
  unfold downgradeUserGroupForSubscription at h
  dsimp only at h
  split_ifs at h with hblank huser
  exact huser

theorem downgrade_subs (h : downgradeUserGroupForSubscription env db sub now = .ok (done, target)) :
    done.subs = db.subs := by
  unfold downgradeUserGroupForSubscription at h
  dsimp only at h
  split_ifs at h <;> obtain ⟨rfl, rfl⟩ := Prod.mk.inj (Except.ok.inj h) <;> rfl

/-- Nothing is done for a subscription that is not there, or has no user. -/
def NoOp (db : GroupDb) (id : ℕ) (done : GroupDb) : Prop :=
  done = db ∧ (id = 0 ∨ ∀ sub, db.subs.find id = some sub → sub.userId = 0)

theorem noOp_of_downgrade_error {start : GroupDb} {id : ℕ} {err : String}
    (hfind : db.subs.find id = some sub)
    (hdown : downgradeUserGroupForSubscription env start sub now = .error err) : db.NoOp id db := by
  refine ⟨rfl, .inr fun sub' h => ?_⟩
  rw [hfind] at h
  cases h
  exact userId_of_downgrade_error hdown

theorem adminInvalidate_cases (env : GroupEnv) (db : GroupDb) (now : ℤ) (id : ℕ) :
    db.NoOp id (adminInvalidateUserSubscription env db id now).1 ∨
    ∃ sub, db.subs.find id = some sub ∧ 0 < sub.id ∧
      db.Ended sub (db.remainingGroup env sub.userId now sub.id) (db.cancel sub now).subs
        (adminInvalidateUserSubscription env db id now).1 := by
  unfold adminInvalidateUserSubscription
  by_cases hid : id = 0
  · exact .inl ⟨by rw [if_pos hid], .inl hid⟩
  rw [if_neg hid]
  rcases hfind : db.subs.find id with _ | sub
  · exact .inl ⟨rfl, .inr fun sub h => by rw [hfind] at h; cases h⟩
  have hpos : 0 < sub.id := by
    have := id_of_find hfind
    omega
  dsimp only
  rcases hdown : downgradeUserGroupForSubscription env (db.cancel sub now) sub now with err | r
  · exact .inl (noOp_of_downgrade_error hfind hdown)
  · have h := announce_downgrade hdown (db.cancel sub now).subs
    rw [cancel_remainingGroup hpos, ← downgrade_subs hdown] at h
    exact .inr ⟨sub, rfl, hpos, by rw [← downgrade_subs hdown]; exact ⟨h.subs, h.group, h.cache⟩⟩

theorem adminDelete_cases (env : GroupEnv) (db : GroupDb) (now : ℤ) (id : ℕ) :
    db.NoOp id (adminDeleteUserSubscription env db id now).1 ∨
    ∃ sub, db.subs.find id = some sub ∧ 0 < sub.id ∧
      db.Ended sub (db.remainingGroup env sub.userId now sub.id) (db.subs.erase sub.id)
        (adminDeleteUserSubscription env db id now).1 := by
  unfold adminDeleteUserSubscription
  by_cases hid : id = 0
  · exact .inl ⟨by rw [if_pos hid], .inl hid⟩
  rw [if_neg hid]
  rcases hfind : db.subs.find id with _ | sub
  · exact .inl ⟨rfl, .inr fun sub h => by rw [hfind] at h; cases h⟩
  obtain rfl := id_of_find hfind
  dsimp only
  rcases hdown : downgradeUserGroupForSubscription env db sub now with err | r
  · exact .inl (noOp_of_downgrade_error hfind hdown)
  · have h := announce_downgrade hdown (db.subs.erase sub.id)
    refine .inr ⟨sub, rfl, Nat.pos_of_ne_zero hid, ?_⟩
    dsimp only
    rw [downgrade_subs hdown]
    exact h

end Admin

section Buy

variable {env : GroupEnv} {db done : GroupDb} {now : ℤ}

/-- A user has bought a plan, and the cache was given a group if the plan has one. -/
structure Bought (env : GroupEnv) (db : GroupDb) (userId : ℕ) (plan : SalePlan) (cached : String)
    (now : ℤ) (done : GroupDb) : Prop where
  subs : ∃ endUnix source prevGroup, calcPlanEndTime env.cal plan now = .ok endUnix ∧
    done.subs =
      db.subs.insert (newSubscription env db userId 0 plan source prevGroup now endUnix)
  group : done.group = update db.group userId (groupOnBuy env db userId plan)
  cache : done.cache =
    if trimSpace plan.upgradeGroup = "" then db.cache
    else update db.cache userId ((db.cache userId).map fun _ => cached)

structure TeamBought (db done : GroupDb) : Prop where
  subs : ∃ sub : GroupSubscription, sub.teamId ≠ 0 ∧ done.subs = db.subs.insert sub
  group : done.group = db.group
  cache : done.cache = db.cache

theorem createUserSubscriptionFromPlan_ok {userId : ℕ} {plan : SalePlan} {source : String}
    (h : createUserSubscriptionFromPlan env db userId plan source now = .ok done) :
    userId ≠ 0 ∧ ∃ endUnix prevGroup, calcPlanEndTime env.cal plan now = .ok endUnix ∧
      done = (db.setGroup userId (groupOnBuy env db userId plan)).addSub
        (newSubscription env db userId 0 plan source prevGroup now endUnix) := by
  unfold createUserSubscriptionFromPlan at h
  split_ifs at h with hplan huser hmax
  split at h
  · cases h
  · rename_i endUnix hend
    exact ⟨huser, endUnix, _, hend, (Except.ok.inj h).symm⟩

theorem createTeamSubscriptionFromPlan_ok {teamId buyer : ℕ} {plan : SalePlan} {source : String}
    (h : createTeamSubscriptionFromPlan env db teamId buyer plan source now = .ok done) :
    db.TeamBought done := by
  unfold createTeamSubscriptionFromPlan at h
  split_ifs at h with hplan hteam hbuyer hmax
  split at h
  · cases h
  · rename_i endUnix hend
    cases h
    exact ⟨⟨_, hteam, rfl⟩, rfl, rfl⟩

theorem adminBind_cases (env : GroupEnv) (db : GroupDb) (userId planId : ℕ)
    (plan : Except String SalePlan) (now : ℤ) :
    (adminBindSubscription env db userId planId plan now).1 = db ∨
    ∃ p, plan = .ok p ∧ db.Bought env userId p p.upgradeGroup now
      (adminBindSubscription env db userId planId plan now).1 := by
  unfold adminBindSubscription
  split_ifs
  · exact .inl rfl
  rcases plan with err | plan
  · exact .inl rfl
  dsimp only
  split
  · exact .inl rfl
  · rename_i bought hbought
    obtain ⟨-, endUnix, prevGroup, hend, rfl⟩ := createUserSubscriptionFromPlan_ok hbought
    refine .inr ⟨plan, rfl, ?_⟩
    split_ifs with hblank
    · exact ⟨⟨endUnix, _, prevGroup, hend, rfl⟩, rfl, by rw [if_neg hblank]; rfl⟩
    · exact ⟨⟨endUnix, _, prevGroup, hend, rfl⟩, rfl, by rw [if_pos (not_not.1 hblank)]; rfl⟩

theorem completePlanOrder_cases (env : GroupEnv) (db : GroupDb) (tradeNo : String)
    (plan : Except String SalePlan) (now : ℤ) :
    (completePlanOrder env db tradeNo plan now).1 = db ∨
    (∃ order p, db.orders.find tradeNo = some order ∧ order.status = .pending ∧ order.teamId = 0 ∧
      plan = .ok p ∧ db.Bought env order.userId p (trimSpace p.upgradeGroup) now
        (completePlanOrder env db tradeNo plan now).1) ∨
    db.TeamBought (completePlanOrder env db tradeNo plan now).1 := by
  unfold completePlanOrder
  split
  · exact .inl rfl
  split
  · exact .inl rfl
  rename_i order horder
  split
  · exact .inl rfl
  split
  · exact .inl rfl
  rename_i hpending
  rcases plan with err | plan
  · exact .inl rfl
  dsimp only
  split
  · exact .inl rfl
  rename_i bought hbought
  unfold fulfil at hbought
  split_ifs at hbought with hteam
  · have hteambought := createTeamSubscriptionFromPlan_ok hbought
    rw [if_pos hteam, if_neg (by simp)]
    exact .inr (.inr ⟨hteambought.subs, hteambought.group, hteambought.cache⟩)
  · obtain ⟨huser, endUnix, prevGroup, hend, rfl⟩ := createUserSubscriptionFromPlan_ok hbought
    refine .inr (.inl ⟨order, plan, horder, not_not.1 hpending, by omega, rfl, ?_⟩)
    rw [if_neg hteam]
    split_ifs with hblank
    · exact ⟨⟨endUnix, _, prevGroup, hend, rfl⟩, rfl, by rw [if_neg hblank.1]; rfl⟩
    · have hempty : trimSpace plan.upgradeGroup = "" :=
        not_not.1 fun hne => hblank ⟨hne, Nat.pos_of_ne_zero huser⟩
      exact ⟨⟨endUnix, _, prevGroup, hend, rfl⟩, rfl, by rw [if_pos hempty]; rfl⟩

end Buy

section NonElevating

variable {db : GroupDb} {sub : GroupSubscription}

theorem remainingGroup_nonElevating (env : GroupEnv) (hmem : sub ∈ db.subs.rows)
    (hsub : sub.nonElevating = true) (u : ℕ) (now : ℤ) :
    db.remainingGroup env u now sub.id = db.remainingGroup env u now 0 := by
  have hfilter : ∀ s ∈ db.subs.rows, s.upgrades u now sub.id = s.upgrades u now 0 := by
    intro s hs
    by_cases hid : s.id = sub.id
    · obtain rfl := Table.eq_of_key hs hmem hid
      rcases of_decide_eq_true hsub with hteam | hblank
      · have hne : s.teamId ≠ 0 := Nat.pos_iff_ne_zero.1 hteam
        simp [upgrades, hne]
      · simp [upgrades, hblank]
    · simp [upgrades, hid]
  rw [remainingGroup, remainingGroup, activeUpgradeGroups, activeUpgradeGroups,
    filter_congr hfilter]

theorem Ended.group_eq_iff {subs : Table fun s : GroupSubscription => s.id}
    (h : db.Ended sub target subs done) :
    done.group sub.userId = db.group sub.userId ↔
      trimSpace sub.upgradeGroup = "" ∨ db.group sub.userId = target := by
  rw [h.group]
  split_ifs with hblank
  · simp [hblank]
  · simp [hblank, eq_comm]

theorem not_noOp (hfind : db.subs.find sub.id = some sub) (hid : 0 < sub.id)
    (huser : 0 < sub.userId) : ¬db.NoOp sub.id done := by
  rintro ⟨-, h | h⟩
  · omega
  · have := h sub hfind
    omega

/-- The end of a subscription that lifted nobody leaves the group alone exactly where it is what the
active ones give, or an administrator ends one without a group. -/
theorem nonElevating_leaves_group_iff (env : GroupEnv) (hfind : db.subs.find sub.id = some sub)
    (hid : 0 < sub.id) (huser : 0 < sub.userId) (hsub : sub.nonElevating = true) (now : ℤ) :
    (∀ limit, sub.userId ∈ db.batchUsers now limit →
      ((expireDueSubscriptions env db limit now).1.group sub.userId = db.group sub.userId ↔
        db.group sub.userId = db.remainingGroup env sub.userId now 0)) ∧
    ((adminInvalidateUserSubscription env db sub.id now).1.group sub.userId =
        db.group sub.userId ↔
      trimSpace sub.upgradeGroup = "" ∨
        db.group sub.userId = db.remainingGroup env sub.userId now 0) ∧
    ((adminDeleteUserSubscription env db sub.id now).1.group sub.userId = db.group sub.userId ↔
      trimSpace sub.upgradeGroup = "" ∨
        db.group sub.userId = db.remainingGroup env sub.userId now 0) := by
  have hrem := remainingGroup_nonElevating env (Table.mem_of_find hfind) hsub sub.userId now
  refine ⟨?_, ?_, ?_⟩
  · intro limit hreach
    rw [expireDueSubscriptions_group, if_pos hreach, eq_comm]
  · rcases adminInvalidate_cases env db now sub.id with hno | ⟨s, hs, -, hend⟩
    · exact absurd hno (not_noOp hfind hid huser)
    · rw [hfind] at hs
      cases hs
      rw [hend.group_eq_iff, hrem]
  · rcases adminDelete_cases env db now sub.id with hno | ⟨s, hs, -, hend⟩
    · exact absurd hno (not_noOp hfind hid huser)
    · rw [hfind] at hs
      cases hs
      rw [hend.group_eq_iff, hrem]

end NonElevating

end GroupDb

def sampleGroupEnv (premiumGroups : String) : GroupEnv where
  premiumGroups := premiumGroups
  toLower s := String.ofList (s.toList.map Char.toLower)
  equalFold a b := a.toList.map Char.toLower = b.toList.map Char.toLower
  equalFold_refl := by simp
  distinct := dedup
  mem_distinct _ _ := mem_dedup
  cal := ⟨⟨fun t => t + 86400, fun t => t + 604800, fun t => t + 2592000⟩,
    fun t n => t + n * 31536000, fun t n => t + n * 2592000⟩

def samplePlan (id : ℕ) (upgradeGroup : String) : SalePlan :=
  ⟨⟨.never, 0⟩, id, upgradeGroup, 1000, 0, .day, 30, 0⟩

def sampleSub (id teamId : ℕ) (upgradeGroup : String) : GroupSubscription :=
  ⟨⟨id, 1, teamId, 1, 1000, 0, 0, 100, .active, 0, 0⟩, "order", upgradeGroup, ""⟩

def sampleGroups (group : String) : GroupDb :=
  ⟨⟨[sampleSub 1 0 "", sampleSub 2 5 "Pro"], by simp [sampleSub]⟩, ⟨[], nodup_nil⟩,
    fun _ => group, fun _ => none, 0⟩

theorem default_user_stays_default :
    (expireDueSubscriptions (sampleGroupEnv "Ultra,Pro") (sampleGroups "default") 200 100).1.group 1
      = "default" := by
  have hfind : (sampleGroups "default").subs.find (sampleSub 1 0 "").id = some (sampleSub 1 0 "") :=
    rfl
  exact ((GroupDb.nonElevating_leaves_group_iff (sampleGroupEnv "Ultra,Pro") hfind (by decide)
    (by decide) rfl 100).1 200 (by decide)).2 (by decide)

/-- A user put into a group loses it when a subscription without a group expires or a team's one is
cancelled. -/
theorem assigned_group_lost :
    (expireDueSubscriptions (sampleGroupEnv "Ultra,Pro") (sampleGroups "vip") 200 100).1.group 1 =
      "default" ∧
    (adminInvalidateUserSubscription (sampleGroupEnv "Ultra,Pro") (sampleGroups "vip") 1 50).1.group
      1 = "vip" ∧
    (adminInvalidateUserSubscription (sampleGroupEnv "Ultra,Pro") (sampleGroups "vip") 2 50).1.group
      1 = "default" := by
  decide

end AggreApi
