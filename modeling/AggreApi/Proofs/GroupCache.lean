import AggreApi.Proofs.UserGroup

/-!
# The cached group

A live cache entry keeps the stored group over every operation except a purchase, which writes the
group of the plan to the cache whether the user was given it or not.
-/

namespace AggreApi

open Function

namespace GroupDb

/-- The entry of a user is live and has the stored group. -/
def Synced (u : ℕ) (db : GroupDb) : Prop := db.cache u = some (db.group u)

variable {env : GroupEnv} {u : ℕ} {db done : GroupDb} {now : ℤ}

theorem Synced.of_eq (h : db.Synced u) (hg : done.group = db.group) (hc : done.cache = db.cache) :
    done.Synced u := by
  rw [Synced, hc, hg]
  exact h

theorem Synced.update (h : db.Synced u) {v : ℕ} {group : String}
    (hg : done.group = update db.group v group)
    (hc : done.cache = update db.cache v ((db.cache v).map fun _ => group)) :
    done.Synced u := by
  rw [Synced, hg, hc]
  by_cases huv : u = v
  · subst huv
    rw [update_self, update_self, h, Option.map_some]
  · rw [update_of_ne huv, update_of_ne huv]
    exact h

theorem Synced.bought (h : db.Synced u) {userId : ℕ} {plan : SalePlan} {cached : String}
    (hb : db.Bought env userId plan cached now done)
    (hc : trimSpace plan.upgradeGroup = "" ∨ groupOnBuy env db userId plan = cached) :
    done.Synced u := by
  have hcache := hb.cache
  have hgroup := hb.group
  split_ifs at hcache with hblank
  · refine h.of_eq ?_ hcache
    rw [hgroup, groupOnBuy, if_pos hblank, update_eq_self]
  · rw [hc.resolve_left hblank] at hgroup
    exact h.update hgroup hcache

theorem Synced.ended (h : db.Synced u) {sub : GroupSubscription} {target : String}
    {subs : Table fun s : GroupSubscription => s.id} (he : db.Ended sub target subs done) :
    done.Synced u := by
  have hcache := he.cache
  have hgroup := he.group
  by_cases hblank : trimSpace sub.upgradeGroup = ""
  · rw [if_pos hblank] at hgroup
    rw [if_pos (.inl hblank)] at hcache
    exact h.of_eq hgroup hcache
  rw [if_neg hblank] at hgroup
  by_cases hsame : target = db.group sub.userId
  · rw [if_pos (.inr hsame)] at hcache
    rw [hsame, update_eq_self] at hgroup
    exact h.of_eq hgroup hcache
  · rw [if_neg (not_or.2 ⟨hblank, hsame⟩)] at hcache
    exact h.update hgroup hcache

theorem Synced.expireUser (h : db.Synced u) (v : ℕ) : (db.expireUser env now v).Synced u := by
  have hmarked : (db.markExpired v now).Synced u := h
  unfold GroupDb.expireUser
  dsimp only
  split_ifs
  · exact hmarked
  · exact hmarked.update rfl rfl

theorem Synced.perform (h : db.Synced u) (e : GroupEvent) (hc : db.cacheCareful env e = true) :
    (db.perform env e).Synced u := by
  rcases e with ⟨op, now⟩
  cases op with
  | order => exact h
  | complete tradeNo plan =>
    rcases completePlanOrder_cases env db tradeNo plan now with
      hsame | ⟨order, p, hfind, hpend, hteam, rfl, hb⟩ | hteam
    · exact h.of_eq (congrArg group hsame) (congrArg cache hsame)
    · refine h.bought hb ?_
      simpa [cacheCareful, purchase, hfind, hpend, hteam] using hc
    · exact h.of_eq hteam.group hteam.cache
  | bind userId planId plan =>
    rcases adminBind_cases env db userId planId plan now with hsame | ⟨p, rfl, hb⟩
    · exact h.of_eq (congrArg group hsame) (congrArg cache hsame)
    · refine h.bought hb ?_
      simpa [cacheCareful, purchase] using hc
  | invalidate id =>
    rcases adminInvalidate_cases env db now id with hno | ⟨sub, -, -, hend⟩
    · exact h.of_eq (congrArg group hno.1) (congrArg cache hno.1)
    · exact h.ended hend
  | delete id =>
    rcases adminDelete_cases env db now id with hno | ⟨sub, -, -, hend⟩
    · exact h.of_eq (congrArg group hno.1) (congrArg cache hno.1)
    · exact h.ended hend
  | expire limit =>
    change ((expireDueSubscriptions env db limit now).1).Synced u
    rw [expireDueSubscriptions, foldl_expire_fst]
    exact run_inv (I := Synced u) (fun _ v hs => hs.expireUser v) h _

theorem Synced.step (h : db.Synced u) (e : GroupEvent) (hc : db.cacheCareful env e = true) :
    (db.step env e).Synced u := by
  have hperform := h.perform e hc
  exact hperform

/-- The cached group stays the stored one as long as every purchase gives the user the group it
writes to the cache. -/
theorem cached_group_eq_stored (env : GroupEnv) (u : ℕ) (db : GroupDb)
    (hdb : db.cache u = some (db.group u)) (es : List GroupEvent)
    (hes : Along (step env) (fun db e => db.cacheCareful env e = true) db es) :
    (run (step env) db es).cache u = some ((run (step env) db es).group u) :=
  Along.run_inv (I := Synced u) (fun _ e h hc => h.step e hc) hdb hes

end GroupDb

def cachedUser (group : String) : GroupDb :=
  ⟨⟨[], List.nodup_nil⟩, ⟨[], List.nodup_nil⟩, fun _ => group, fun _ => some group, 0⟩

def sampleOrder : PlanOrder := ⟨⟨1, 5, "SUB-1", "stripe", 0, 0, .pending⟩, 1, 0⟩

def ordered (upgradeGroup : String) : List GroupEvent :=
  [⟨.order sampleOrder, 10⟩, ⟨.complete "SUB-1" (.ok (samplePlan 1 upgradeGroup)), 20⟩]

def bound (upgradeGroup : String) : List GroupEvent :=
  [⟨.bind 1 1 (.ok (samplePlan 1 upgradeGroup)), 10⟩]

theorem upgrade_is_cached : (run (GroupDb.step (sampleGroupEnv "Ultra,Pro")) (cachedUser "default")
      (ordered "Pro" ++ [⟨.expire 200, 9000000⟩])).cache 1 =
    some ((run (GroupDb.step (sampleGroupEnv "Ultra,Pro")) (cachedUser "default")
      (ordered "Pro" ++ [⟨.expire 200, 9000000⟩])).group 1) :=
  GroupDb.cached_group_eq_stored _ 1 (cachedUser "default") rfl _ (by decide)

/-- A user of the higher group buys the plan of the lower one. -/
theorem cached_group_differs :
    (run (GroupDb.step (sampleGroupEnv "Ultra,Pro")) (cachedUser "Ultra") (ordered "Pro")).cache 1
      = some "Pro" ∧
    (run (GroupDb.step (sampleGroupEnv "Ultra,Pro")) (cachedUser "Ultra") (ordered "Pro")).group 1
      = "Ultra" ∧
    (run (GroupDb.step (sampleGroupEnv "Ultra,Pro")) (cachedUser "default") (bound " Pro")).cache 1
      = some " Pro" ∧
    (run (GroupDb.step (sampleGroupEnv "Ultra,Pro")) (cachedUser "default") (bound " Pro")).group 1
      = "Pro" := by
  decide

end AggreApi
