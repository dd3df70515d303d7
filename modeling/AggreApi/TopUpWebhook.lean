import AggreApi.TopUp

/-!
# Payment webhooks

What the providers' notifications of `controller/topup_*.go` do to the orders once their signature
has been checked, the administrator's completion, and all of them as the events of one system that
handles one at a time.
-/

namespace AggreApi

structure WebhookFaults where
  order : RechargeFaults
  find : Bool
  topUp : RechargeFaults
  update : Bool

def startsWith (tag s : String) : Bool := tag.toList.isPrefixOf s.toList

variable (quotaPerUnit : ℚ) (db : TopUpDb) (ipn : NowPaymentsIpn) (tradeNo : String) (now : ℤ)
  (f : WebhookFaults)

namespace TopUpDb

def getTopUp (tradeNo : String) : Option TopUp := if f.find then none else db.topUps.find tradeNo

def updateStatus (topUp : TopUp) (status : TopUpStatus) : TopUpDb :=
  if f.update then db else { db with topUps := db.topUps.put { topUp with status := status } }

def failPending (tradeNo : String) : TopUpDb :=
  match db.getTopUp f tradeNo with
  | none => db
  | some topUp => if topUp.status = .pending then db.updateStatus f topUp .failed else db

end TopUpDb

def sessionCompleted (status referenceId : String) (now : ℤ) (f : WebhookFaults) : TopUpDb :=
  if status ≠ "complete" then db
  else match completeSubscriptionOrder db referenceId now f.order with
    | (completed, .ok ()) => completed
    | (_, .error (.other _)) => db
    | (_, .error .notFound) => (recharge quotaPerUnit db referenceId now f.topUp).1

/-- An order that is not pending is only noted in the log, and then marked expired like any
other. -/
def sessionExpired (status referenceId : String) (now : ℤ) (f : WebhookFaults) : TopUpDb :=
  if status ≠ "expired" then db
  else if referenceId = "" then db
  else match expireSubscriptionOrder db referenceId now f.order with
    | (expired, .ok ()) => expired
    | (_, .error (.other _)) => db
    | (_, .error .notFound) =>
      match db.getTopUp f referenceId with
      | none => db
      | some topUp => db.updateStatus f topUp .expired

def handleCheckoutCompleted (orderStatus requestId orderType : String) (now : ℤ) (f : WebhookFaults)
    : TopUpDb :=
  if orderStatus ≠ "paid" then db
  else if requestId = "" then db
  else match completeSubscriptionOrder db requestId now f.order with
    | (completed, .ok ()) => completed
    | (_, .error (.other _)) => db
    | (_, .error .notFound) =>
      if orderType ≠ "onetime" then db
      else match db.getTopUp f requestId with
        | none => db
        | some topUp =>
          if topUp.status ≠ .pending then db
          else (rechargeCreem quotaPerUnit db requestId now f.topUp).1

def handleWaffoPayment (orderStatus merchantOrderId : String) (now : ℤ) (f : WebhookFaults) :
    TopUpDb :=
  if orderStatus ≠ "PAY_SUCCESS" then
    if merchantOrderId = "" then db else db.failPending f merchantOrderId
  else (rechargeWaffo quotaPerUnit db merchantOrderId now f.topUp).1

def handleWaffoPancakeOrderCompleted : TopUpDb :=
  if tradeNo = "" then db else (rechargeWaffoPancake quotaPerUnit db tradeNo now f.topUp).1

def cryptomusFailed : List String :=
  ["fail", "cancel", "system_fail", "refund_paid", "wrong_amount", "refund_process"]

def cryptomusWebhook (orderId status : String) (isFinal : Bool) (merchantAmount : ℚ) (now : ℤ)
    (f : WebhookFaults) : TopUpDb :=
  if orderId = "" then db
  else match db.getTopUp f orderId with
    | none => db
    | some topUp =>
      if topUp.status = .success then db
      else if status ≠ "paid" ∧ status ≠ "paid_over" then
        if isFinal ∧ status ∈ cryptomusFailed then db.failPending f orderId else db
      else if 0 < merchantAmount ∧ merchantAmount + 1 / 100 < topUp.money then db
      else (rechargeCryptomus quotaPerUnit db orderId now f.topUp).1

structure NowPaymentsIpn where
  orderId : String
  paymentStatus : String
  actuallyPaid : ℚ
  payAmount : ℚ

def NowPaymentsIpn.underpaid : Bool :=
  0 < ipn.actuallyPaid ∧ 0 < ipn.payAmount ∧ ipn.actuallyPaid + 1 / 1000 < ipn.payAmount

def NowPaymentsIpn.ended : Bool := ipn.paymentStatus ∈ ["failed", "expired", "refunded"]

def nowPaymentsHandleTopUpWebhook : TopUpDb :=
  match db.getTopUp f ipn.orderId with
  | none => db
  | some topUp =>
    if topUp.status = .success then db
    else if ipn.paymentStatus = "finished" then
      if ipn.underpaid then db
      else (rechargeNowPayments quotaPerUnit db ipn.orderId now f.topUp).1
    else if ipn.ended then db.failPending f ipn.orderId
    else db

def nowPaymentsHandleSubscriptionWebhook : TopUpDb :=
  match if f.find then none else db.orders.find ipn.orderId with
  | none => db
  | some order =>
    if order.status = .success then db
    else if ipn.paymentStatus = "finished" then
      if ipn.underpaid then db else (completeSubscriptionOrder db ipn.orderId now f.order).1
    else if ipn.ended then (expireSubscriptionOrder db ipn.orderId now f.order).1
    else db

def nowPaymentsWebhook : TopUpDb :=
  if ipn.orderId = "" then db
  else if startsWith "SUB-NP-" ipn.orderId then nowPaymentsHandleSubscriptionWebhook db ipn now f
  else nowPaymentsHandleTopUpWebhook quotaPerUnit db ipn now f

def dodoHandlePaymentSucceeded : TopUpDb :=
  if tradeNo = "" then db
  else if !startsWith "DODO-" tradeNo then db
  else match db.getTopUp f tradeNo with
    | none => db
    | some topUp =>
      if topUp.status = .success then db
      else (rechargeDodoPayments quotaPerUnit db tradeNo now f.topUp).1

def dodoHandlePaymentFailed : TopUpDb :=
  if tradeNo = "" then db
  else if startsWith "DODO-" tradeNo then db.failPending f tradeNo
  else if startsWith "SUB-DODO-" tradeNo then (expireSubscriptionOrder db tradeNo now f.order).1
  else db

def dodoHandleSubscriptionActive : TopUpDb :=
  if tradeNo = "" ∨ !startsWith "SUB-DODO-" tradeNo then db
  else match if f.find then none else db.orders.find tradeNo with
    | none => db
    | some order =>
      if order.status = .success then db
      else (completeSubscriptionOrder db tradeNo now f.order).1

def dodoHandleSubscriptionFailed : TopUpDb :=
  if tradeNo = "" ∨ !startsWith "SUB-DODO-" tradeNo then db
  else (expireSubscriptionOrder db tradeNo now f.order).1

def dodoPaymentsWebhook (type tradeNo : String) (now : ℤ) (f : WebhookFaults) : TopUpDb :=
  if type = "payment.succeeded" then dodoHandlePaymentSucceeded quotaPerUnit db tradeNo now f
  else if type ∈ ["payment.failed", "payment.cancelled"] then
    dodoHandlePaymentFailed db tradeNo now f
  else if type = "subscription.active" then dodoHandleSubscriptionActive db tradeNo now f
  else if type ∈ ["subscription.failed", "subscription.cancelled", "subscription.on_hold"] then
    dodoHandleSubscriptionFailed db tradeNo now f
  else db

inductive PaymentNotice
  | created (topUp : TopUp) (pageFailed : Bool)
  | ordered (order : SubscriptionOrder)
  | stripeCompleted (status referenceId : String)
  | stripeExpired (status referenceId : String)
  | creem (orderStatus requestId orderType : String)
  | waffo (orderStatus merchantOrderId : String)
  | waffoPancake (tradeNo : String)
  | cryptomus (orderId status : String) (isFinal : Bool) (merchantAmount : ℚ)
  | nowPayments (ipn : NowPaymentsIpn)
  | dodo (type tradeNo : String)
  | epay (serviceTradeNo : String)
  | manual (tradeNo : String)

structure PaymentEvent where
  notice : PaymentNotice
  quotaPerUnit : ℚ
  now : ℤ
  faults : WebhookFaults
  increase : Bool

def TopUpDb.init (topUps : Table TopUp.tradeNo) (orders : Table SubscriptionOrder.tradeNo)
    (quota : ℕ → ℚ) : TopUpDb :=
  ⟨topUps, orders, quota, []⟩

def TopUpDb.create (topUp : TopUp) (pageFailed : Bool) : TopUpDb :=
  let status := if pageFailed then TopUpStatus.failed else .pending
  { db with topUps := db.topUps.insert { topUp with status := status } }

def TopUpDb.step (e : PaymentEvent) : TopUpDb :=
  match e.notice with
  | .created topUp pageFailed => db.create topUp pageFailed
  | .ordered order => { db with orders := db.orders.insert order }
  | .stripeCompleted status id => sessionCompleted e.quotaPerUnit db status id e.now e.faults
  | .stripeExpired status id => sessionExpired db status id e.now e.faults
  | .creem status id type => handleCheckoutCompleted e.quotaPerUnit db status id type e.now e.faults
  | .waffo status id => handleWaffoPayment e.quotaPerUnit db status id e.now e.faults
  | .waffoPancake id => handleWaffoPancakeOrderCompleted e.quotaPerUnit db id e.now e.faults
  | .cryptomus id status isFinal amount =>
    cryptomusWebhook e.quotaPerUnit db id status isFinal amount e.now e.faults
  | .nowPayments ipn => nowPaymentsWebhook e.quotaPerUnit db ipn e.now e.faults
  | .dodo type id => dodoPaymentsWebhook e.quotaPerUnit db type id e.now e.faults
  | .epay id => epayNotify e.quotaPerUnit db id e.now ⟨e.faults.find, e.faults.update, e.increase⟩
  | .manual id => (manualCompleteTopUp e.quotaPerUnit db id e.now e.faults.topUp).1

def TopUpDb.careful (e : PaymentEvent) : Bool :=
  match e.notice with
  | .stripeExpired _ referenceId => db.statusOf referenceId ≠ some .success
  | _ => true

end AggreApi
