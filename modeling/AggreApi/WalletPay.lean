import AggreApi.UserGroup
import AggreApi.UserRace

/-!
# Subscriptions paid from the wallet

`SubscriptionRequestWalletPay`, any number of calls of one buyer side by side, each cut where others
can come in between: the transaction that creates the order and deducts its cost, that of
`CompleteSubscriptionOrder` with the reward of an invitee after it, and after a failed activation
the refund and the expiry of the order. Every statement may fail but those two. The deduction locks
the buyer's row until the commit; what a transaction writes is visible from its commit on.
-/

namespace AggreApi

structure PricedPlan extends SalePlan where
  enabled : Bool
  priceAmount : ℚ

/-- A request with its plan as read, the objection to its scope, and its order's number. -/
structure WalletPayRequest where
  planId : ℕ
  teamId : ℕ
  plan : Except String PricedPlan
  scope : Option String
  tradeNo : String

structure WalletPaySettings extends InviteSettings where
  walletPayEnabled : Bool

namespace WalletPaySettings

variable (cfg : WalletPaySettings)

def quotaCost (plan : PricedPlan) : ℤ := intPart (plan.priceAmount * cfg.quotaPerUnit)

def accept (req : WalletPayRequest) : Except String PricedPlan :=
  if !cfg.walletPayEnabled then .error "余额支付订阅未启用"
  else if req.planId = 0 then .error "参数错误"
  else match req.plan with
    | .error err => .error err
    | .ok plan =>
      if !plan.enabled then .error "套餐未启用"
      else if plan.priceAmount < 1 / 100 then .error "套餐金额过低"
      else match req.scope with
        | some err => .error err
        | none => if cfg.quotaCost plan ≤ 0 then .error "套餐金额过低" else .ok plan

def order (req : WalletPayRequest) (plan : PricedPlan) (now : ℤ) :
    PlanOrder where
  userId := cfg.userId
  teamId := req.teamId
  planId := plan.id
  money := plan.priceAmount
  tradeNo := req.tradeNo
  paymentMethod := "wallet"
  createTime := now
  completeTime := 0
  status := .pending

end WalletPaySettings

/-- What `CompleteSubscriptionOrder` has read and made of it when it comes to its writes. -/
structure Activation where
  order : PlanOrder
  plan : SalePlan
  group : String
  prevGroup : String
  endUnix : ℤ
  now : ℤ

namespace GroupDb

variable (env : GroupEnv) (db : GroupDb)

/-- The reads and checks of `CompleteSubscriptionOrder`; a success has nothing to do. -/
def readPlanOrder (tradeNo : String) (plan : Except String SalePlan) (now : ℤ) :
    Except OrderError (Option Activation) :=
  if tradeNo = "" then .error (.other "tradeNo is empty")
  else match db.orders.find tradeNo with
    | none => .error .notFound
    | some order =>
      if order.status = .success then .ok none
      else if order.status ≠ .pending then .error (.other "subscription order status invalid")
      else match plan with
        | .error err => .error (.other err)
        | .ok plan =>
          match db.fulfil env order plan now, calcPlanEndTime env.cal plan now with
          | .error err, _ => .error (.other err)
          | .ok _, .error err => .error (.other err)
          | .ok _, .ok endUnix =>
            let group := groupOnBuy env db order.userId plan
            let prevGroup :=
              if 0 < order.teamId ∨ group = db.group order.userId then ""
              else db.group order.userId
            .ok (some ⟨order, plan, group, prevGroup, endUnix, now⟩)

def activated (a : Activation) : GroupSubscription :=
  newSubscription env db a.order.userId a.order.teamId a.plan "order" a.prevGroup a.now a.endUnix

/-- The writes of `CompleteSubscriptionOrder`. -/
def activate (a : Activation) : GroupDb :=
  let bought :=
    if 0 < a.order.teamId then db.addSub (db.activated env a)
    else (db.setGroup a.order.userId a.group).addSub (db.activated env a)
  let saved := { a.order with completeTime := a.now, status := .success }
  let done := { bought with orders := bought.orders.put saved }
  let upgradeGroup := if 0 < a.order.teamId then "" else trimSpace a.plan.upgradeGroup
  if upgradeGroup ≠ "" ∧ 0 < a.order.userId then
    done.updateUserGroupCache a.order.userId upgradeGroup
  else done

/-- `ExpireSubscriptionOrder`. -/
def expirePlanOrder (tradeNo : String) (now : ℤ) : GroupDb :=
  match db.orders.find tradeNo with
  | none => db
  | some order =>
    if order.status ≠ .pending then db
    else { db with orders := db.orders.put { order with completeTime := now, status := .expired } }

end GroupDb

/-- Before its checks; in the first transaction; deducted; in the activation; before the refund
and the expiry; before the reward is claimed and credited; over. -/
inductive WalletPayAt
  | starting
  | ordering (order : PlanOrder) (quotaCost : ℤ)
  | deducting (order : PlanOrder) (quotaCost : ℤ)
  | committing (order : PlanOrder) (quotaCost : ℤ)
  | paid (quotaCost : ℤ)
  | activating (quotaCost : ℤ) (a : Activation)
  | refunding (quotaCost : ℤ)
  | expiring
  | settling (quotaCost : ℤ) (subId : ℕ)
  | crediting (quotaCost : ℤ) (subId : ℕ)
  | bought (quotaCost : ℤ) (subId : Option ℕ) (reward : ℤ)
  | failed (msg : String)

structure WalletPayProc where
  req : WalletPayRequest
  pos : WalletPayAt

structure WalletPayEvent where
  proc : ℕ
  now : ℤ
  fail : Bool
  plan : Except String SalePlan

/-- The buyer's row and the other tables as committed. -/
structure WalletShop where
  row : UserRow
  db : GroupDb
  procs : List WalletPayProc

namespace WalletShop

def init (row : UserRow) (db : GroupDb) (reqs : List WalletPayRequest) : WalletShop :=
  ⟨row, db, reqs.map fun req => ⟨req, .starting⟩⟩

def move (s : WalletShop) (i : ℕ) (p : WalletPayProc) (pos : WalletPayAt) : WalletShop :=
  { s with procs := s.procs.set i { p with pos := pos } }

def addQuota (s : WalletShop) (quota : ℤ) : WalletShop := { s with row := s.row.addQuota quota }

def locked (s : WalletShop) : Bool :=
  s.procs.any fun p =>
    match p.pos with
    | .committing _ _ => true
    | _ => false

variable (env : GroupEnv) (cfg : WalletPaySettings)

def advance (s : WalletShop) (e : WalletPayEvent) (p : WalletPayProc) : WalletShop :=
  match p.pos with
  | .starting =>
    match cfg.accept p.req with
    | .error err => s.move e.proc p (.failed err)
    | .ok plan =>
      s.move e.proc p (.ordering (cfg.order p.req plan e.now) (cfg.quotaCost plan))
  | .ordering order quotaCost =>
    if e.fail ∨ (s.db.orders.find order.tradeNo).isSome then s.move e.proc p (.failed "下单失败")
    else s.move e.proc p (.deducting order quotaCost)
  | .deducting order quotaCost =>
    if s.locked then s
    else if e.fail then s.move e.proc p (.failed "下单失败")
    else if s.row.quota < quotaCost then s.move e.proc p (.failed "余额不足，请先充值")
    else s.move e.proc p (.committing order quotaCost)
  | .committing order quotaCost =>
    if e.fail then s.move e.proc p (.failed "下单失败")
    else
      { (s.move e.proc p (.paid quotaCost)).addQuota (-quotaCost) with
        db := { s.db with orders := s.db.orders.insert order } }
  | .paid quotaCost =>
    if e.fail then s.move e.proc p (.refunding quotaCost)
    else match s.db.readPlanOrder env p.req.tradeNo e.plan e.now with
      | .error _ => s.move e.proc p (.refunding quotaCost)
      | .ok none => s.move e.proc p (.bought quotaCost none 0)
      | .ok (some a) => s.move e.proc p (.activating quotaCost a)
  | .activating quotaCost a =>
    if e.fail then s.move e.proc p (.refunding quotaCost)
    else { s.move e.proc p (.settling quotaCost s.db.freshId) with db := s.db.activate env a }
  | .refunding quotaCost =>
    if s.locked then s else (s.move e.proc p .expiring).addQuota quotaCost
  | .expiring =>
    { s.move e.proc p (.failed "订阅激活失败，已退款") with
      db := s.db.expirePlanOrder p.req.tradeNo e.now }
  | .settling quotaCost subId =>
    if s.row.inviterId = 0 ∨ s.row.inviterId = cfg.userId then
      s.move e.proc p (.bought quotaCost (some subId) 0)
    else if s.locked then s
    else if s.row.affRewardSettled then s.move e.proc p (.bought quotaCost (some subId) 0)
    else
      { s.move e.proc p (.crediting quotaCost subId) with
        row := { s.row with affRewardSettled := true } }
  | .crediting quotaCost subId =>
    if cfg.quotaForInvitee ≤ 0 then s.move e.proc p (.bought quotaCost (some subId) 0)
    else if s.locked then s
    else
      (s.move e.proc p (.bought quotaCost (some subId) cfg.quotaForInvitee)).addQuota
        cfg.quotaForInvitee
  | .bought _ _ _ => s
  | .failed _ => s

def step (s : WalletShop) (e : WalletPayEvent) : WalletShop :=
  match s.procs[e.proc]? with
  | none => s
  | some p => s.advance env cfg e p

end WalletShop

end AggreApi
