import AggreApi.Subscription
import AggreApi.TopUp

/-!
# The group of a user

How subscriptions decide `user.group` in `model/subscription.go` and `model/team_subscription.go`: a
purchase only ever lifts it, while the end of a subscription computes it anew from those that are
still active. The `Group` field of the user's cache entry is written beside it.
-/

namespace AggreApi

/-- The starts of periods, and a time some years or months later, in the server's time zone. -/
structure PlanCalendar extends Calendar where
  addYears : ℤ → ℤ → ℤ
  addMonths : ℤ → ℤ → ℤ

/-- The setting, the case functions, what `SELECT DISTINCT` makes of a column, and the calendar. -/
structure GroupEnv where
  premiumGroups : String
  toLower : String → String
  equalFold : String → String → Bool
  equalFold_refl : ∀ s, equalFold s s = true
  distinct : List String → List String
  mem_distinct : ∀ l g, g ∈ distinct l ↔ g ∈ l
  cal : PlanCalendar

def commonUserGroupDefault : String := "default"

namespace GroupEnv

variable (env : GroupEnv)

def parsePremiumGroups : List String :=
  let raw := trimSpace env.premiumGroups
  if raw = "" then []
  else ((raw.toList.splitOn ',').map fun p => trimSpace (String.ofList p)).filter (· ≠ "")

def groupRank (group : String) : ℕ :=
  let norm := env.toLower (trimSpace group)
  if norm = "" then 2 ^ 30
  else env.parsePremiumGroups.findIdx fun r => env.equalFold (trimSpace r) norm

def resolveUserGroupOnBuy (currentGroup incoming : String) : String :=
  let current := trimSpace currentGroup
  let next := trimSpace incoming
  if next = "" then current
  else if current = "" ∨ env.equalFold current commonUserGroupDefault then next
  else if env.groupRank next < env.groupRank current then next
  else current

def better (best : Option String) (g : String) : Option String :=
  let t := trimSpace g
  if t = "" then best
  else match best with
    | none => some t
    | some b => if env.groupRank t < env.groupRank b then some t else some b

def resolveUserGroupFromActive (activeGroups : List String) : String :=
  (activeGroups.foldl env.better none).getD commonUserGroupDefault

end GroupEnv

inductive DurationUnit
  | year
  | month
  | day
  | hour
  | custom
  | invalid (unit : String)
  deriving DecidableEq, Repr

structure SalePlan extends SubscriptionPlan where
  id : ℕ
  upgradeGroup : String
  totalAmount : ℤ
  maxPurchasePerUser : ℤ
  durationUnit : DurationUnit
  durationValue : ℤ
  customSeconds : ℤ
  deriving DecidableEq, Repr

structure GroupSubscription extends UserSubscription where
  source : String
  upgradeGroup : String
  prevUserGroup : String
  deriving DecidableEq, Repr

def GroupSubscription.upgrades (s : GroupSubscription) (userId : ℕ) (now : ℤ) (excludeSubId : ℕ) :
    Bool :=
  s.userId = userId ∧ s.teamId = 0 ∧ s.status = .active ∧ now < s.endTime ∧ s.upgradeGroup ≠ "" ∧
    (0 < excludeSubId → s.id ≠ excludeSubId)

def GroupSubscription.nonElevating (s : GroupSubscription) : Bool :=
  0 < s.teamId ∨ s.upgradeGroup = ""

structure PlanOrder extends SubscriptionOrder where
  planId : ℕ
  teamId : ℕ
  deriving DecidableEq

/-- Subscriptions, orders, groups, the cached groups that are live, and the last time. -/
structure GroupDb where
  subs : Table fun s : GroupSubscription => s.id
  orders : Table fun o : PlanOrder => o.tradeNo
  group : ℕ → String
  cache : ℕ → Option String
  clock : ℤ

variable (env : GroupEnv) (db : GroupDb) (userId : ℕ) (now : ℤ) (plan : SalePlan)
  (sub : GroupSubscription) (e : GroupEvent) (limit : ℤ)

namespace GroupDb

def freshId : ℕ := (db.subs.rows.map fun s => s.id).foldr max 0 + 1

def setGroup (group : String) : GroupDb :=
  { db with group := Function.update db.group userId group }

/-- `UpdateUserGroupCache` writes the field only where the entry is there. -/
def updateUserGroupCache (group : String) : GroupDb :=
  { db with cache := Function.update db.cache userId ((db.cache userId).map fun _ => group) }

def addSub : GroupDb := { db with subs := db.subs.insert sub }

/-- `listActiveUpgradeGroupsTx` before its `DISTINCT`, without one subscription. -/
def activeUpgradeGroups (excludeSubId : ℕ) : List String :=
  (db.subs.rows.filter fun s => s.upgrades userId now excludeSubId).map fun s => s.upgradeGroup

def remainingGroup (excludeSubId : ℕ) : String :=
  env.resolveUserGroupFromActive (env.distinct (db.activeUpgradeGroups userId now excludeSubId))

end GroupDb

def calcPlanEndTime (cal : PlanCalendar) (plan : SalePlan) (start : ℤ) : Except String ℤ :=
  if plan.durationValue ≤ 0 ∧ plan.durationUnit ≠ .custom then .error "duration_value must be > 0"
  else match plan.durationUnit with
    | .year => .ok (cal.addYears start plan.durationValue)
    | .month => .ok (cal.addMonths start plan.durationValue)
    | .day => .ok (start + durationSeconds (plan.durationValue * 86400))
    | .hour => .ok (start + durationSeconds (plan.durationValue * 3600))
    | .custom =>
      if plan.customSeconds ≤ 0 then .error "custom_seconds must be > 0"
      else .ok (start + durationSeconds plan.customSeconds)
    | .invalid unit => .error ("invalid duration_unit: " ++ unit)

def newSubscription (teamId : ℕ) (plan : SalePlan) (source prevGroup : String) (now endUnix : ℤ) :
    GroupSubscription where
  id := db.freshId
  userId := userId
  teamId := teamId
  planId := plan.id
  amountTotal := plan.totalAmount
  amountUsed := 0
  startTime := now
  endTime := endUnix
  status := .active
  lastResetTime :=
    if 0 < calcNextResetTime env.cal.toCalendar plan.toSubscriptionPlan now endUnix then now else 0
  nextResetTime := calcNextResetTime env.cal.toCalendar plan.toSubscriptionPlan now endUnix
  source := source
  upgradeGroup := trimSpace plan.upgradeGroup
  prevUserGroup := prevGroup

def groupOnBuy : String :=
  if trimSpace plan.upgradeGroup = "" then db.group userId
  else env.resolveUserGroupOnBuy (db.group userId) (trimSpace plan.upgradeGroup)

def createUserSubscriptionFromPlan (source : String) (now : ℤ) : Except String GroupDb :=
  if plan.id = 0 then .error "invalid plan"
  else if userId = 0 then .error "invalid user id"
  else if 0 < plan.maxPurchasePerUser ∧ plan.maxPurchasePerUser ≤ db.subs.rows.countP
      (fun s => s.userId = userId ∧ s.planId = plan.id ∧ s.teamId = 0) then
    .error "已达到该套餐购买上限"
  else match calcPlanEndTime env.cal plan now with
    | .error err => .error err
    | .ok endUnix =>
      let group := groupOnBuy env db userId plan
      let prevGroup := if group = db.group userId then "" else db.group userId
      let sub := newSubscription env db userId 0 plan source prevGroup now endUnix
      .ok ((db.setGroup userId group).addSub sub)

/-- A team's subscription records the buyer and leaves the buyer's group alone. -/
def createTeamSubscriptionFromPlan (teamId buyerUserId : ℕ) (plan : SalePlan) (source : String)
    (now : ℤ) : Except String GroupDb :=
  if plan.id = 0 then .error "invalid plan"
  else if teamId = 0 then .error "invalid team id"
  else if buyerUserId = 0 then .error "invalid buyer user id"
  else if 0 < plan.maxPurchasePerUser ∧ plan.maxPurchasePerUser ≤ db.subs.rows.countP
      (fun s => s.teamId = teamId ∧ s.planId = plan.id) then
    .error "已达到该套餐购买上限"
  else match calcPlanEndTime env.cal plan now with
    | .error err => .error err
    | .ok endUnix =>
      .ok (db.addSub (newSubscription env db buyerUserId teamId plan source "" now endUnix))

def GroupDb.fulfil (order : PlanOrder) (plan : SalePlan) (now : ℤ) : Except String GroupDb :=
  if 0 < order.teamId then
    createTeamSubscriptionFromPlan env db order.teamId order.userId plan "order" now
  else createUserSubscriptionFromPlan env db order.userId plan "order" now

/-- `CompleteSubscriptionOrder` with the plan of the order as it is read; the cache gets the group
of the plan. -/
def completePlanOrder (tradeNo : String) (plan : Except String SalePlan) (now : ℤ) :
    GroupDb × Except OrderError Unit :=
  if tradeNo = "" then (db, .error (.other "tradeNo is empty"))
  else match db.orders.find tradeNo with
    | none => (db, .error .notFound)
    | some order =>
      if order.status = .success then (db, .ok ())
      else if order.status ≠ .pending then (db, .error (.other "subscription order status invalid"))
      else match plan with
        | .error err => (db, .error (.other err))
        | .ok plan =>
          match db.fulfil env order plan now with
          | .error err => (db, .error (.other err))
          | .ok bought =>
            let saved := { order with completeTime := now, status := .success }
            let done := { bought with orders := bought.orders.put saved }
            let upgradeGroup := if 0 < order.teamId then "" else trimSpace plan.upgradeGroup
            if upgradeGroup ≠ "" ∧ 0 < order.userId then
              (done.updateUserGroupCache order.userId upgradeGroup, .ok ())
            else (done, .ok ())

def adminBindSubscription (planId : ℕ) (plan : Except String SalePlan) (now : ℤ) :
    GroupDb × Except String String :=
  if userId = 0 ∨ planId = 0 then (db, .error "invalid userId or planId")
  else match plan with
    | .error err => (db, .error err)
    | .ok plan =>
      match createUserSubscriptionFromPlan env db userId plan "admin" now with
      | .error err => (db, .error err)
      | .ok bought =>
        if trimSpace plan.upgradeGroup ≠ "" then
          (bought.updateUserGroupCache userId plan.upgradeGroup,
            .ok ("用户分组将升级到 " ++ plan.upgradeGroup))
        else (bought, .ok "")

/-- The new group is reported where it differs from the old one. -/
def downgradeUserGroupForSubscription (now : ℤ) : Except String (GroupDb × String) :=
  if trimSpace sub.upgradeGroup = "" then .ok (db, "")
  else if sub.userId = 0 then .error "invalid userId"
  else
    let target := db.remainingGroup env sub.userId now sub.id
    if target = db.group sub.userId then .ok (db, "")
    else .ok (db.setGroup sub.userId target, target)

def GroupDb.announce (target : String) : GroupDb × Except String String :=
  if target = "" then (db, .ok "")
  else (if 0 < userId then db.updateUserGroupCache userId target else db,
    .ok ("用户分组将回退到 " ++ target))

def GroupDb.cancel (now : ℤ) : GroupDb :=
  { db with subs := db.subs.put { sub with status := .cancelled, endTime := now } }

def adminInvalidateUserSubscription (userSubscriptionId : ℕ) (now : ℤ) :
    GroupDb × Except String String :=
  if userSubscriptionId = 0 then (db, .error "invalid userSubscriptionId")
  else match db.subs.find userSubscriptionId with
    | none => (db, .error "record not found")
    | some sub =>
      match downgradeUserGroupForSubscription env (db.cancel sub now) sub now with
      | .error err => (db, .error err)
      | .ok (done, target) => done.announce sub.userId target

def adminDeleteUserSubscription (userSubscriptionId : ℕ) (now : ℤ) :
    GroupDb × Except String String :=
  if userSubscriptionId = 0 then (db, .error "invalid userSubscriptionId")
  else match db.subs.find userSubscriptionId with
    | none => (db, .error "record not found")
    | some sub =>
      match downgradeUserGroupForSubscription env db sub now with
      | .error err => (db, .error err)
      | .ok (done, target) =>
        { done with subs := done.subs.erase userSubscriptionId }.announce sub.userId target

def GroupSubscription.due (s : GroupSubscription) (now : ℤ) : Bool :=
  s.status = .active ∧ 0 < s.endTime ∧ s.endTime ≤ now

def GroupSubscription.expireFor (s : GroupSubscription) (userId : ℕ) (now : ℤ) :
    GroupSubscription :=
  if s.userId = userId ∧ s.due now then { s with status := .expired } else s

namespace GroupDb

def dueBatch : List GroupSubscription :=
  ((db.subs.rows.filter fun s => s.due now).insertionSort fun a b =>
    a.endTime < b.endTime ∨ a.endTime = b.endTime ∧ a.id ≤ b.id).take
    (if limit ≤ 0 then 200 else limit.toNat)

def batchUsers : List ℕ := (((db.dueBatch now limit).map fun s => s.userId).filter (0 < ·)).dedup

def markExpired : GroupDb :=
  { db with
    subs := db.subs.map (fun s => s.expireFor userId now) fun s => by
      unfold GroupSubscription.expireFor
      split_ifs <;> rfl }

def expireUser (db : GroupDb) (userId : ℕ) : GroupDb :=
  let marked := db.markExpired userId now
  let target := marked.remainingGroup env userId now 0
  if target = marked.group userId then marked
  else (marked.setGroup userId target).updateUserGroupCache userId target

def expiredCount : ℕ := db.subs.rows.countP fun s => s.userId = userId ∧ s.due now

end GroupDb

def expireDueSubscriptions (now : ℤ) : GroupDb × ℕ :=
  (db.batchUsers now limit).foldl
    (fun r userId => (r.1.expireUser env now userId, r.2 + r.1.expiredCount userId now)) (db, 0)

inductive GroupOp
  | order (order : PlanOrder)
  | complete (tradeNo : String) (plan : Except String SalePlan)
  | bind (userId planId : ℕ) (plan : Except String SalePlan)
  | invalidate (userSubscriptionId : ℕ)
  | delete (userSubscriptionId : ℕ)
  | expire (limit : ℤ)

structure GroupEvent where
  op : GroupOp
  now : ℤ

namespace GroupDb

def perform : GroupDb :=
  match e.op with
  | .order order => { db with orders := db.orders.insert order }
  | .complete tradeNo plan => (completePlanOrder env db tradeNo plan e.now).1
  | .bind userId planId plan => (adminBindSubscription env db userId planId plan e.now).1
  | .invalidate id => (adminInvalidateUserSubscription env db id e.now).1
  | .delete id => (adminDeleteUserSubscription env db id e.now).1
  | .expire limit => (expireDueSubscriptions env db limit e.now).1

def step : GroupDb := { db.perform env e with clock := e.now }

def purchase : Option (ℕ × SalePlan × String) :=
  match e.op with
  | .complete tradeNo (.ok plan) =>
    match db.orders.find tradeNo with
    | some order =>
      if order.status = .pending ∧ order.teamId = 0 then
        some (order.userId, plan, trimSpace plan.upgradeGroup)
      else none
    | none => none
  | .bind userId _ (.ok plan) => some (userId, plan, plan.upgradeGroup)
  | _ => none

/-- A personal purchase that goes through gives the user the group that is written to the cache. -/
def cacheCareful : Bool :=
  match db.purchase e with
  | some (userId, plan, cached) =>
    trimSpace plan.upgradeGroup = "" ∨ groupOnBuy env db userId plan = cached
  | none => true

def endsAfterEpoch (now : ℤ) : Bool :=
  match calcPlanEndTime env.cal plan now with
  | .ok endUnix => 0 < endUnix
  | .error _ => true

/-- For a user in the default group the plan's group does not rank below that of a subscription the
user has. -/
def ranksAmongActive (now : ℤ) : Bool :=
  env.equalFold (trimSpace (db.group userId)) commonUserGroupDefault →
    ∀ g ∈ db.activeUpgradeGroups userId now 0,
      env.groupRank (trimSpace plan.upgradeGroup) ≤ env.groupRank g

def buysWell (db : GroupDb) (e : GroupEvent) : Bool :=
  match db.purchase e with
  | some (buyer, plan, _) => buyer ≠ userId ∨ trimSpace plan.upgradeGroup = "" ∨
      endsAfterEpoch env plan e.now ∧ ranksAmongActive env db userId plan e.now
  | none => true

def reaches (db : GroupDb) (e : GroupEvent) : Bool :=
  match e.op with
  | .expire limit =>
    (∃ s ∈ db.subs.rows, s.userId = userId ∧ s.due e.now = true) →
      userId ∈ db.batchUsers e.now limit
  | _ => true

/-- What it takes for a user's group to follow the subscriptions; time does not go back. -/
def groupCareful (db : GroupDb) (e : GroupEvent) : Bool :=
  db.clock ≤ e.now ∧ buysWell env userId db e ∧ reaches userId db e

end GroupDb

end AggreApi
