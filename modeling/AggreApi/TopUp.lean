import AggreApi.Lib.Run
import AggreApi.Lib.Table

/-!
# Top-up orders

The orders of `model/topup.go`: how each provider's request handler creates one, the functions that
complete one and credit the user, and the webhooks of `controller/topup_*.go` that call them or mark
an order failed or expired. Money is exact. Beside the tables stands a log of what has been credited
for which order.
-/

namespace AggreApi

inductive TopUpStatus
  | pending
  | success
  | failed
  | expired
  deriving DecidableEq, Repr

structure TopUp where
  userId : ℕ
  amount : ℤ
  money : ℚ
  tradeNo : String
  paymentMethod : String
  createTime : ℤ
  completeTime : ℤ
  status : TopUpStatus
  deriving DecidableEq

structure SubscriptionOrder where
  userId : ℕ
  money : ℚ
  tradeNo : String
  paymentMethod : String
  createTime : ℤ
  completeTime : ℤ
  status : TopUpStatus
  deriving DecidableEq

/-- The tables, the users' quotas, and the log of credits. -/
structure TopUpDb where
  topUps : Table TopUp.tradeNo
  orders : Table SubscriptionOrder.tradeNo
  quota : ℕ → ℚ
  credits : List (String × ℚ)

namespace TopUpDb

def statusOf (db : TopUpDb) (tradeNo : String) : Option TopUpStatus :=
  (db.topUps.find tradeNo).map TopUp.status

def credit (db : TopUpDb) (userId : ℕ) (tradeNo : String) (quota : ℚ) : TopUpDb :=
  { db with
    quota := Function.update db.quota userId (db.quota userId + quota)
    credits := (tradeNo, quota) :: db.credits }

end TopUpDb

def intPart (q : ℚ) : ℤ := q.num.tdiv q.den

/-! ## Requests -/

/-- What the request handlers read besides the request. -/
structure PaySettings where
  quotaPerUnit : ℚ
  tokens : Bool
  minTopup : ℤ
  topupGroupRatio : ℚ
  amountDiscount : ℤ → Option ℚ

variable (minTopUp : ℤ) (unitPrice : ℚ)

namespace PaySettings

variable (s : PaySettings)

def groupRatio : ℚ := if s.topupGroupRatio = 0 then 1 else s.topupGroupRatio

def discount (amount : ℤ) : ℚ :=
  match s.amountDiscount amount with
  | some ds => if 0 < ds then ds else 1
  | none => 1

def payMoney (amount : ℤ) : ℚ :=
  (if s.tokens then amount / s.quotaPerUnit else amount) * unitPrice * s.groupRatio *
    s.discount amount

def normalized (amount : ℤ) : ℤ :=
  if s.tokens then max 1 (intPart (amount / s.quotaPerUnit)) else amount

end PaySettings

/-- Who asks, whether that user could not be read, and what the clock and chance decide. -/
structure PayRequest where
  userId : ℕ
  noUser : Bool
  amount : ℤ
  unique : String
  now : ℤ

/-- Where the request handlers with a hosted page differ. -/
structure PayProvider where
  minTopUp : ℤ
  maxTopUp : Option ℤ
  unitPrice : ℚ
  leastMoney : ℚ
  tradeTag : String
  paymentMethod : String

/-- `supported` tells whether the way of paying that the request names is one the provider has. -/
def requestHostedPay (p : PayProvider) (supported : Bool) (s : PaySettings) (req : PayRequest) :
    Except String TopUp :=
  let least := max p.minTopUp s.minTopup
  if req.amount < least then .error ("充值数量不能小于 " ++ toString least)
  else if p.maxTopUp.any (· < req.amount) then .error "充值数量过大"
  else if req.noUser then .error "用户不存在"
  else if !supported then .error "不支持的支付方式"
  else
    let payMoney := s.payMoney p.unitPrice req.amount
    if payMoney < p.leastMoney then .error "充值金额过低"
    else .ok ⟨req.userId, s.normalized req.amount, payMoney, p.tradeTag ++ req.unique,
      p.paymentMethod, req.now, 0, .pending⟩

/-- A method of Waffo is named by its place in the list, or by its type and name. -/
def waffoMethodValid (methods : List (String × String)) (payMethodIndex : Option ℤ)
    (payMethodType payMethodName : String) : Bool :=
  match payMethodIndex with
  | some idx => 0 ≤ idx ∧ idx < methods.length
  | none => payMethodType = "" ∨ (payMethodType, payMethodName) ∈ methods

def requestWaffoPay (methods : List (String × String)) (payMethodIndex : Option ℤ)
    (payMethodType payMethodName : String) : PaySettings → PayRequest → Except String TopUp :=
  requestHostedPay ⟨minTopUp, none, unitPrice, 1 / 100, "WAFFO-", "waffo"⟩
    (waffoMethodValid methods payMethodIndex payMethodType payMethodName)

def requestWaffoPancakePay : PaySettings → PayRequest → Except String TopUp :=
  requestHostedPay ⟨minTopUp, none, unitPrice, 1 / 100, "WPNC-", "waffo-pancake"⟩ true

def requestCryptomusPay : PaySettings → PayRequest → Except String TopUp :=
  requestHostedPay ⟨minTopUp, some 10000, unitPrice, 1 / 2, "CM-", "cryptomus"⟩ true

def requestNowPaymentsPay : PaySettings → PayRequest → Except String TopUp :=
  requestHostedPay ⟨minTopUp, some 10000, unitPrice, 1, "NP-", "nowpayments"⟩ true

def requestDodoPaymentsPay : PaySettings → PayRequest → Except String TopUp :=
  requestHostedPay ⟨minTopUp, some 10000, unitPrice, 1 / 2, "DODO-", "dodopayments"⟩ true

/-- `payMethods` are the configured types, of which the request names one. -/
def requestEpay (price : ℚ) (payMethods : List String) (paymentMethod : String)
    (s : PaySettings) (req : PayRequest) : Except String TopUp :=
  if req.amount < s.minTopup then .error ("充值数量不能小于 " ++ toString s.minTopup)
  else if req.noUser then .error "获取用户分组失败"
  else
    let payMoney := s.payMoney price req.amount
    if payMoney < 1 / 100 then .error "充值金额过低"
    else if paymentMethod ∉ payMethods then .error "支付方式不存在"
    else
      let amount := if s.tokens then intPart (req.amount / s.quotaPerUnit) else req.amount
      .ok ⟨req.userId, amount, payMoney, "USR" ++ req.unique, paymentMethod, req.now, 0, .pending⟩

/-- `stripeMin` is `getStripeMinTopup`, and the money is `GetChargedAmount`. -/
def requestStripePay (stripeMin : ℤ) (paymentMethod : String) (s : PaySettings)
    (req : PayRequest) : Except String TopUp :=
  let least := max stripeMin s.minTopup
  if paymentMethod ≠ "stripe" then .error "不支持的支付渠道"
  else if req.amount < least then .error ("充值数量不能小于 " ++ toString least)
  else if 10000 < req.amount then .error "充值数量不能大于 10000"
  else .ok ⟨req.userId, req.amount, req.amount * s.groupRatio, "ref_" ++ req.unique, "stripe",
    req.now, 0, .pending⟩

structure CreemProduct where
  productId : String
  price : ℚ
  quota : ℤ
  deriving DecidableEq

/-- The order takes its quota and its price from the product, and names no payment method. -/
def requestCreemPay (products : List CreemProduct) (paymentMethod productId : String)
    (req : PayRequest) : Except String TopUp :=
  if paymentMethod ≠ "creem" then .error "不支持的支付渠道"
  else if productId = "" then .error "请选择产品"
  else match products.find? fun p => p.productId = productId with
    | none => .error "产品不存在"
    | some product =>
      .ok ⟨req.userId, product.quota, product.price, "ref_" ++ req.unique, "", req.now, 0,
        .pending⟩

/-! ## Completing an order -/

structure RechargeFaults where
  find : Bool
  write : Option String

/-- Where the functions that complete an order differ. -/
structure RechargeRule where
  noTradeNo : String
  idempotent : Bool
  wrongStatus : String
  quotaToAdd : ℚ → TopUp → ℚ
  positive : Bool
  failed : Option String

/-- The transaction with which an order is completed; the quota column takes the sum as computed. -/
def RechargeRule.complete (rule : RechargeRule) (quotaPerUnit : ℚ) (db : TopUpDb)
    (tradeNo : String) (now : ℤ) (f : RechargeFaults) : TopUpDb × Except String Unit :=
  let fail (err : String) : TopUpDb × Except String Unit := (db, .error (rule.failed.getD err))
  if tradeNo = "" then (db, .error rule.noTradeNo)
  else match if f.find then none else db.topUps.find tradeNo with
    | none => fail "充值订单不存在"
    | some topUp =>
      if topUp.status = .success ∧ rule.idempotent then (db, .ok ())
      else if topUp.status ≠ .pending then fail rule.wrongStatus
      else if rule.positive ∧ rule.quotaToAdd quotaPerUnit topUp ≤ 0 then fail "无效的充值额度"
      else match f.write with
        | some err => fail err
        | none =>
          let saved := { topUp with completeTime := now, status := .success }
          ({ db with topUps := db.topUps.put saved }.credit topUp.userId tradeNo
            (rule.quotaToAdd quotaPerUnit topUp), .ok ())

def amountQuota (quotaPerUnit : ℚ) (topUp : TopUp) : ℚ := intPart (topUp.amount * quotaPerUnit)

def rechargeRule : RechargeRule :=
  ⟨"未提供支付单号", false, "充值订单状态错误", fun quotaPerUnit topUp => topUp.money * quotaPerUnit,
    false, some "充值失败，请稍后重试"⟩

def rechargeCreemRule : RechargeRule :=
  ⟨"未提供支付单号", false, "充值订单状态错误", fun _ topUp => topUp.amount, false,
    some "充值失败，请稍后重试"⟩

/-- `RechargeWaffo`, `RechargeWaffoPancake`, `RechargeCryptomus`, `RechargeNowPayments` and
`RechargeDodoPayments` share one body. -/
def rechargeHostedRule : RechargeRule :=
  ⟨"未提供支付单号", true, "充值订单状态错误", amountQuota, true, some "充值失败，请稍后重试"⟩

/-- `ManualCompleteTopUp` takes the money of an order paid by Stripe, else the amount. -/
def manualCompleteRule : RechargeRule :=
  ⟨"未提供订单号", true, "订单状态不是待支付，无法补单", fun quotaPerUnit topUp =>
    if topUp.paymentMethod = "stripe" then intPart (topUp.money * quotaPerUnit)
    else amountQuota quotaPerUnit topUp, true, none⟩

def recharge := rechargeRule.complete

def rechargeCreem := rechargeCreemRule.complete

def rechargeWaffo := rechargeHostedRule.complete

def rechargeWaffoPancake := rechargeHostedRule.complete

def rechargeCryptomus := rechargeHostedRule.complete

def rechargeNowPayments := rechargeHostedRule.complete

def rechargeDodoPayments := rechargeHostedRule.complete

def manualCompleteTopUp := manualCompleteRule.complete

structure EpayFaults where
  find : Bool
  update : Bool
  increase : Bool

/-- `EpayNotify`: the order is saved first, and the quota increased by its own statement. -/
def epayNotify (quotaPerUnit : ℚ) (db : TopUpDb) (tradeNo : String) (now : ℤ) (f : EpayFaults) :
    TopUpDb :=
  match if f.find then none else db.topUps.find tradeNo with
  | none => db
  | some topUp =>
    if topUp.status ≠ .pending ∨ f.update then db
    else
      let saved := { topUp with completeTime := now, status := .success }
      let updated := { db with topUps := db.topUps.put saved }
      if amountQuota quotaPerUnit topUp < 0 ∨ f.increase then updated
      else updated.credit topUp.userId tradeNo (amountQuota quotaPerUnit topUp)

/-- Whose page an order is paid on. -/
inductive Provider
  | stripe
  | creem
  | waffo
  | waffoPancake
  | cryptomus
  | nowPayments
  | dodoPayments
  | epay
  deriving DecidableEq

/-- The orders that each provider's request handler creates. -/
inductive RequestedBy (s : PaySettings) : Provider → TopUp → Prop
  | stripe {stripeMin : ℤ} {paymentMethod : String} {req : PayRequest} {topUp : TopUp} :
      requestStripePay stripeMin paymentMethod s req = .ok topUp → RequestedBy s .stripe topUp
  | creem {products : List CreemProduct} {paymentMethod productId : String} {req : PayRequest}
      {topUp : TopUp} :
      requestCreemPay products paymentMethod productId req = .ok topUp → RequestedBy s .creem topUp
  | waffo {minTopUp : ℤ} {unitPrice : ℚ} {methods : List (String × String)} {index : Option ℤ}
      {type name : String} {req : PayRequest} {topUp : TopUp} :
      requestWaffoPay minTopUp unitPrice methods index type name s req = .ok topUp →
      RequestedBy s .waffo topUp
  | waffoPancake {minTopUp : ℤ} {unitPrice : ℚ} {req : PayRequest} {topUp : TopUp} :
      requestWaffoPancakePay minTopUp unitPrice s req = .ok topUp →
      RequestedBy s .waffoPancake topUp
  | cryptomus {minTopUp : ℤ} {unitPrice : ℚ} {req : PayRequest} {topUp : TopUp} :
      requestCryptomusPay minTopUp unitPrice s req = .ok topUp → RequestedBy s .cryptomus topUp
  | nowPayments {minTopUp : ℤ} {unitPrice : ℚ} {req : PayRequest} {topUp : TopUp} :
      requestNowPaymentsPay minTopUp unitPrice s req = .ok topUp →
      RequestedBy s .nowPayments topUp
  | dodoPayments {minTopUp : ℤ} {unitPrice : ℚ} {req : PayRequest} {topUp : TopUp} :
      requestDodoPaymentsPay minTopUp unitPrice s req = .ok topUp →
      RequestedBy s .dodoPayments topUp
  | epay {price : ℚ} {payMethods : List String} {paymentMethod : String} {req : PayRequest}
      {topUp : TopUp} :
      requestEpay price payMethods paymentMethod s req = .ok topUp → RequestedBy s .epay topUp

def Provider.complete (p : Provider) (quotaPerUnit : ℚ) (db : TopUpDb) (tradeNo : String)
    (now : ℤ) : TopUpDb :=
  match p with
  | .stripe => (recharge quotaPerUnit db tradeNo now ⟨false, none⟩).1
  | .creem => (rechargeCreem quotaPerUnit db tradeNo now ⟨false, none⟩).1
  | .waffo => (rechargeWaffo quotaPerUnit db tradeNo now ⟨false, none⟩).1
  | .waffoPancake => (rechargeWaffoPancake quotaPerUnit db tradeNo now ⟨false, none⟩).1
  | .cryptomus => (rechargeCryptomus quotaPerUnit db tradeNo now ⟨false, none⟩).1
  | .nowPayments => (rechargeNowPayments quotaPerUnit db tradeNo now ⟨false, none⟩).1
  | .dodoPayments => (rechargeDodoPayments quotaPerUnit db tradeNo now ⟨false, none⟩).1
  | .epay => epayNotify quotaPerUnit db tradeNo now ⟨false, false, false⟩

/-- The money of a Stripe order is worth a whole quota, the quota of a Creem product is worth
itself, and an Epay order called like Stripe's has money and amount worth the same. -/
def Provider.manualAgrees (p : Provider) (quotaPerUnit : ℚ) (topUp : TopUp) : Prop :=
  match p with
  | .stripe =>
    0 ≤ topUp.money * quotaPerUnit ∧ (⌊topUp.money * quotaPerUnit⌋ : ℚ) = topUp.money * quotaPerUnit
  | .creem =>
    0 ≤ topUp.amount ∧ (topUp.amount : ℚ) ≤ topUp.amount * quotaPerUnit ∧
      topUp.amount * quotaPerUnit < topUp.amount + 1
  | .epay =>
    topUp.paymentMethod = "stripe" →
      max 0 ⌊topUp.money * quotaPerUnit⌋ = max 0 ⌊topUp.amount * quotaPerUnit⌋
  | .waffo | .waffoPancake | .cryptomus | .nowPayments | .dodoPayments => True

/-! ## Subscription orders -/

inductive OrderError
  | notFound
  | other (err : String)
  deriving DecidableEq

/-- `upsertSubscriptionTopUpTx`: the top-up row that stands for a paid subscription. -/
def upsertSubscriptionTopUp (topUps : Table TopUp.tradeNo) (order : SubscriptionOrder) (now : ℤ) :
    Table TopUp.tradeNo :=
  match topUps.find order.tradeNo with
  | none => topUps.insert ⟨order.userId, 0, order.money, order.tradeNo, order.paymentMethod,
      order.createTime, now, .success⟩
  | some topUp => topUps.put
      { topUp with
        money := order.money
        paymentMethod :=
          if topUp.paymentMethod = "" then order.paymentMethod else topUp.paymentMethod
        createTime := if topUp.createTime = 0 then order.createTime else topUp.createTime
        completeTime := now
        status := .success }

/-- `CompleteSubscriptionOrder` as far as orders and top-ups go. -/
def completeSubscriptionOrder (db : TopUpDb) (tradeNo : String) (now : ℤ) (f : RechargeFaults) :
    TopUpDb × Except OrderError Unit :=
  if tradeNo = "" then (db, .error (.other "tradeNo is empty"))
  else match if f.find then none else db.orders.find tradeNo with
    | none => (db, .error .notFound)
    | some order =>
      if order.status = .success then (db, .ok ())
      else if order.status ≠ .pending then (db, .error (.other "subscription order status invalid"))
      else match f.write with
        | some err => (db, .error (.other err))
        | none =>
          let saved := { order with completeTime := now, status := .success }
          ({ db with
             topUps := upsertSubscriptionTopUp db.topUps order now
             orders := db.orders.put saved }, .ok ())

def expireSubscriptionOrder (db : TopUpDb) (tradeNo : String) (now : ℤ) (f : RechargeFaults) :
    TopUpDb × Except OrderError Unit :=
  if tradeNo = "" then (db, .error (.other "tradeNo is empty"))
  else match if f.find then none else db.orders.find tradeNo with
    | none => (db, .error .notFound)
    | some order =>
      if order.status ≠ .pending then (db, .ok ())
      else match f.write with
        | some err => (db, .error (.other err))
        | none =>
          let saved := { order with completeTime := now, status := .expired }
          ({ db with orders := db.orders.put saved }, .ok ())

end AggreApi
