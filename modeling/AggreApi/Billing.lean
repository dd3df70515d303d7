import AggreApi.Subscription
import AggreApi.Task

/-!
# Billing sessions

`service/billing_session.go` and `service/funding_source.go`: a session charges a token and one
funding source before a request is relayed, and settles or refunds the charge after it. What a call
reads elsewhere comes from outside, as do the errors of its statements.
-/

namespace AggreApi

/-- The columns that are charged, and the subscription tables. -/
structure Db where
  userQuota : ℕ → ℤ
  tokenRemain : ℕ → ℤ
  tokenUsed : ℕ → ℤ
  memberUsed : ℕ × ℕ → Option ℤ
  sub : Subscriptions

variable (db : Db) (cfg : BillingConfig) (info : RelayInfo)

namespace Db

def negativeQuota : String := "quota 不能为负数！"

def updateUserQuota (id : ℕ) (quota delta : ℤ) (err : Option String) : Except String Db :=
  if quota < 0 then .error negativeQuota
  else match err with
    | some e => .error e
    | none => .ok { db with userQuota := Function.update db.userQuota id (db.userQuota id + delta) }

def decreaseUserQuota (id : ℕ) (quota : ℤ) (err : Option String) : Except String Db :=
  db.updateUserQuota id quota (-quota) err

def increaseUserQuota (id : ℕ) (quota : ℤ) (err : Option String) : Except String Db :=
  db.updateUserQuota id quota quota err

/-- A token's charge grows by `delta`: its remaining quota falls and its used quota rises. -/
def chargeToken (id : ℕ) (delta : ℤ) : Db :=
  { db with
    tokenRemain := Function.update db.tokenRemain id (db.tokenRemain id - delta)
    tokenUsed := Function.update db.tokenUsed id (db.tokenUsed id + delta) }

def updateTokenQuota (id : ℕ) (quota delta : ℤ) (err : Option String) : Except String Db :=
  if quota < 0 then .error negativeQuota
  else match err with
    | some e => .error e
    | none => .ok (db.chargeToken id delta)

def decreaseTokenQuota (id : ℕ) (quota : ℤ) (err : Option String) : Except String Db :=
  db.updateTokenQuota id quota quota err

def increaseTokenQuota (id : ℕ) (quota : ℤ) (err : Option String) : Except String Db :=
  db.updateTokenQuota id quota (-quota) err

/-- The direction the sign of `delta` says: the charge of a token grows by it. -/
def adjustTokenQuota (id : ℕ) (delta : ℤ) (err : Option String) : Except String Db :=
  if 0 < delta then db.decreaseTokenQuota id delta err else db.increaseTokenQuota id (-delta) err

def adjustUserQuota (id : ℕ) (delta : ℤ) (err : Option String) : Except String Db :=
  if 0 < delta then db.decreaseUserQuota id delta err else db.increaseUserQuota id (-delta) err

/-- `IncrTeamMemberUsedQuota`, whose callers only log its error. -/
def incrTeamMemberUsedQuota (teamId userId : ℕ) (delta : ℤ) (err : Option String) : Db :=
  match err with
  | some _ => db
  | none =>
    let used := (db.memberUsed (teamId, userId)).map (· + delta)
    { db with memberUsed := Function.update db.memberUsed (teamId, userId) used }

end Db

/-- The three implementations of `FundingSource`. -/
inductive Funding
  | wallet (userId : ℕ) (consumed : ℤ)
  | subscription (requestId : String) (userId : ℕ) (amount : ℤ) (subscriptionId : ℕ)
      (preConsumed : ℤ)
  | team (requestId : String) (teamId : ℕ) (amount : ℤ) (subscriptionId : ℕ) (preConsumed : ℤ)
  deriving DecidableEq, Repr

/-- The errors of one attempt to open a session, by statement. -/
structure SessionFaults where
  decreaseToken : Option String
  increaseToken : Option String
  decreaseUser : Option String
  preConsume : PreConsumeFaults

namespace Funding

def source : Funding → BillingSource
  | .wallet _ _ => .wallet
  | .subscription _ _ _ _ _ => .subscription
  | .team _ _ _ _ _ => .subscription

/-- `PreConsume`; a subscription charges the amount it was built with. -/
def preConsume (env : SubscriptionEnv) (f : SessionFaults) (db : Db) (amount : ℤ) :
    Funding → Option (Except String (Db × Funding))
  | .wallet userId consumed =>
    if amount ≤ 0 then some (.ok (db, .wallet userId consumed))
    else some ((db.decreaseUserQuota userId amount f.decreaseUser).map fun db =>
      (db, .wallet userId amount))
  | .subscription requestId userId own _ _ =>
    (preConsumeUserSubscription env f.preConsume requestId userId own db.sub).map
      (Except.map fun r => ({ db with sub := r.1 },
        .subscription requestId userId own r.2.userSubscriptionId r.2.preConsumed))
  | .team requestId teamId own _ _ =>
    (preConsumeTeamSubscription env f.preConsume requestId teamId own db.sub).map
      (Except.map fun r => ({ db with sub := r.1 },
        .team requestId teamId own r.2.userSubscriptionId r.2.preConsumed))

def adjustSub (subscriptionId : ℕ) (delta : ℤ) (err : Option String) : Except String Db :=
  (postConsumeUserSubscriptionDelta db.sub subscriptionId delta err).map fun sub =>
    { db with sub := sub }

def settle (delta : ℤ) (err : Option String) : Funding → Except String Db
  | .wallet userId _ =>
    if delta = 0 then .ok db else db.adjustUserQuota userId delta err
  | .subscription _ _ _ subscriptionId _ =>
    if delta = 0 then .ok db else adjustSub db subscriptionId delta err
  | .team _ _ _ subscriptionId _ =>
    if delta = 0 then .ok db else adjustSub db subscriptionId delta err

/-- `Refund`: the wallet is tried once, a subscription as often as there are attempts. -/
def refund (err : Option String) (attempts : List RefundFaults) :
    Funding → Db × Except String Unit
  | .wallet userId consumed =>
    if consumed ≤ 0 then (db, .ok ())
    else match db.increaseUserQuota userId consumed err with
      | .ok db => (db, .ok ())
      | .error e => (db, .error e)
  | .subscription requestId _ _ _ preConsumed =>
    if preConsumed ≤ 0 then (db, .ok ())
    else
      let r := refundWithRetry db.sub requestId attempts
      ({ db with sub := r.1 }, r.2)
  | .team requestId _ _ _ preConsumed =>
    if preConsumed ≤ 0 then (db, .ok ())
    else
      let r := refundWithRetry db.sub requestId attempts
      ({ db with sub := r.1 }, r.2)

end Funding

/-- The settings a session reads. -/
structure BillingConfig where
  trustQuota : ℤ
  formatQuota : ℤ → String

/-- `BillingPreference`, as `NormalizeBillingPreference` leaves it. -/
inductive BillingPreference
  | subscriptionFirst
  | walletFirst
  | subscriptionOnly
  | walletOnly
  deriving DecidableEq, Repr

structure RelayInfo where
  userId : ℕ
  tokenId : ℕ
  tokenTeamId : ℕ
  requestId : String
  isPlayground : Bool
  forcePreConsume : Bool
  tokenUnlimited : Bool
  tokenQuota : ℤ
  billingPreference : BillingPreference
  forceWalletBilling : Bool
  deriving DecidableEq, Repr

inductive ErrorCode
  | insufficientUserQuota
  | queryDataError
  | updateDataError
  | preConsumeTokenQuotaFailed
  deriving DecidableEq, Repr

structure ApiError where
  code : ErrorCode
  message : String
  deriving DecidableEq, Repr

structure BillingSession where
  funding : Funding
  preConsumedQuota : ℤ
  tokenConsumed : ℤ
  fundingSettled : Bool
  settled : Bool
  refunded : Bool
  deriving DecidableEq, Repr

def contains (s sub : String) : Bool := s.toList.tails.any (sub.toList.isPrefixOf ·)

def fundingError (e : String) : ApiError :=
  if contains e "no active subscription" || contains e "subscription quota insufficient" then
    ⟨.insufficientUserQuota, "订阅额度不足或未配置订阅: " ++ e⟩
  else ⟨.updateDataError, e⟩

/-- `PreConsumeTokenQuota`; `remain` is the token as it is read. -/
def preConsumeTokenQuota (remain : Except String ℤ) (err : Option String) (db : Db) (quota : ℤ) :
    Except String Db :=
  if quota < 0 then .error Db.negativeQuota
  else if info.isPlayground then .ok db
  else match remain with
    | .error e => .error e
    | .ok remain =>
      if !info.tokenUnlimited && remain < quota then
        .error ("token quota is not enough, token remain quota: " ++ cfg.formatQuota remain ++
          ", need quota: " ++ cfg.formatQuota quota)
      else db.decreaseTokenQuota info.tokenId quota err

structure BillingReads where
  userQuota : Except String ℤ
  tokenRemain : Except String ℤ
  hasActiveUserSubscription : Except String Bool
  hasActiveTeamSubscription : Except String Bool
  teamMemberQuota : Option (ℤ × ℤ)
  walletFallbackEnabled : Option Bool
  activeUpgradeGroups : Option (List String)
  servableInGroup : String → Bool

variable (env : SubscriptionEnv) (r : BillingReads) (f : SessionFaults)

def isOutOfPlanGroupModel (info : RelayInfo) : Bool :=
  info.userId ≠ 0 && r.walletFallbackEnabled = some true &&
    match r.activeUpgradeGroups with
    | some (g :: gs) => !(g :: gs).any r.servableInGroup
    | _ => false

/-- Whether a request goes ahead uncharged, with the quota the wallet path has read. -/
def shouldTrust (userQuota : ℤ) (funding : Funding) : Bool :=
  !info.forcePreConsume && 0 < cfg.trustQuota &&
    (info.tokenUnlimited || cfg.trustQuota < info.tokenQuota) &&
    match funding with
    | .wallet _ _ => cfg.trustQuota < userQuota
    | _ => false

/-- The token is charged, then the funding source; if that fails the token is given it back. -/
def preConsume (cfg : BillingConfig) (env : SubscriptionEnv) (r : BillingReads)
    (f : SessionFaults) (info : RelayInfo) (userQuota : ℤ) (funding : Funding) (quota : ℤ)
    (db : Db) : Option (Db × Except ApiError BillingSession) :=
  let effectiveQuota := if shouldTrust cfg info userQuota funding then 0 else quota
  let charged := if 0 < effectiveQuota then
      preConsumeTokenQuota cfg info r.tokenRemain f.decreaseToken db effectiveQuota
    else .ok db
  match charged with
  | .error e => some (db, .error ⟨.preConsumeTokenQuotaFailed, e⟩)
  | .ok db₁ =>
    let tokenConsumed := if 0 < effectiveQuota then effectiveQuota else 0
    match funding.preConsume env f db₁ effectiveQuota with
    | none => none
    | some (.error e) =>
      let db₂ := if 0 < tokenConsumed ∧ info.isPlayground = false then
          match db₁.increaseTokenQuota info.tokenId tokenConsumed f.increaseToken with
          | .ok db₂ => db₂
          | .error _ => db₁
        else db₁
      some (db₂, .error (fundingError e))
    | some (.ok (db₂, funding)) =>
      some (db₂, .ok ⟨funding, effectiveQuota, tokenConsumed, false, false, false⟩)

def tryWallet (info : RelayInfo) (preConsumedQuota : ℤ) (db : Db) :
    Option (Db × Except ApiError BillingSession) :=
  match r.userQuota with
  | .error e => some (db, .error ⟨.queryDataError, e⟩)
  | .ok userQuota =>
    if userQuota ≤ 0 then
      some (db, .error ⟨.insufficientUserQuota,
        "用户额度不足, 剩余额度: " ++ cfg.formatQuota userQuota⟩)
    else if userQuota - preConsumedQuota < 0 then
      some (db, .error ⟨.insufficientUserQuota, "预扣费额度失败, 用户剩余额度: " ++
        cfg.formatQuota userQuota ++ ", 需要预扣费额度: " ++ cfg.formatQuota preConsumedQuota⟩)
    else preConsume cfg env r f info userQuota (.wallet info.userId 0) preConsumedQuota db

def subConsume (preConsumedQuota : ℤ) : ℤ := if preConsumedQuota ≤ 0 then 1 else preConsumedQuota

def trySubscription (info : RelayInfo) (preConsumedQuota : ℤ) (db : Db) :
    Option (Db × Except ApiError BillingSession) :=
  let amount := subConsume preConsumedQuota
  preConsume cfg env r f info 0 (.subscription info.requestId info.userId amount 0 0) amount db

def tryTeam (info : RelayInfo) (preConsumedQuota : ℤ) (db : Db) :
    Option (Db × Except ApiError BillingSession) :=
  match r.hasActiveTeamSubscription with
  | .error e => some (db, .error ⟨.queryDataError, e⟩)
  | .ok false =>
    some (db, .error ⟨.insufficientUserQuota,
      "团队订阅不存在或已过期 (team_id=" ++ toString info.tokenTeamId ++ ")"⟩)
  | .ok true =>
    if r.teamMemberQuota.any fun q => 0 < q.1 && q.1 ≤ q.2 then
      some (db, .error ⟨.insufficientUserQuota, "团队成员额度已用尽 (team_id=" ++
        toString info.tokenTeamId ++ ", user_id=" ++ toString info.userId ++ ")"⟩)
    else
      let amount := subConsume preConsumedQuota
      preConsume cfg env r f info 0 (.team info.requestId info.tokenTeamId amount 0 0) amount db

def orElse (first : Option (Db × Except ApiError BillingSession))
    (second : Db → Option (Db × Except ApiError BillingSession)) :
    Option (Db × Except ApiError BillingSession) :=
  match first with
  | some (db, .error e) =>
    if e.code = .insufficientUserQuota then second db else some (db, .error e)
  | r => r

structure OpenFaults where
  wallet : SessionFaults
  subscription : SessionFaults

def newBillingSession (f : OpenFaults) (info : RelayInfo) (preConsumedQuota : ℤ) (db : Db) :
    Option (Db × Except ApiError BillingSession) :=
  if 0 < info.tokenTeamId then tryTeam cfg env r f.subscription info preConsumedQuota db
  else if info.forceWalletBilling || isOutOfPlanGroupModel r info then
    if info.billingPreference = .subscriptionOnly then
      some (db, .error ⟨.insufficientUserQuota,
        "用户计费偏好为「仅订阅」，套餐外模型不可用，请切换到「订阅优先」或「钱包优先」模式"⟩)
    else tryWallet cfg env r f.wallet info preConsumedQuota db
  else match info.billingPreference with
    | .subscriptionOnly => trySubscription cfg env r f.subscription info preConsumedQuota db
    | .walletOnly => tryWallet cfg env r f.wallet info preConsumedQuota db
    | .walletFirst =>
      orElse (tryWallet cfg env r f.wallet info preConsumedQuota db)
        (trySubscription cfg env r f.subscription info preConsumedQuota)
    | .subscriptionFirst =>
      match r.hasActiveUserSubscription with
      | .error e => some (db, .error ⟨.queryDataError, e⟩)
      | .ok false => tryWallet cfg env r f.wallet info preConsumedQuota db
      | .ok true =>
        orElse (trySubscription cfg env r f.subscription info preConsumedQuota db)
          (tryWallet cfg env r f.wallet info preConsumedQuota)

structure SettleFaults where
  member : Option String
  funding : Option String
  token : Option String
  deriving DecidableEq, Repr

structure RefundJobFaults where
  wallet : Option String
  first : RefundFaults
  second : RefundFaults
  third : RefundFaults
  token : Option String

namespace BillingSession

/-- The member's counter of a team's session, for a positive amount outside the playground. -/
def countMember (err : Option String) (s : BillingSession) (actualQuota : ℤ) (db : Db) : Db :=
  match s.funding with
  | .team _ _ _ _ _ =>
    if 0 < actualQuota ∧ info.isPlayground = false then
      db.incrTeamMemberUsedQuota info.tokenTeamId info.userId actualQuota err
    else db
  | _ => db

/-- `Settle`: the funding source, then the token, whose error leaves the session settled. -/
def settle (info : RelayInfo) (f : SettleFaults) (actualQuota : ℤ) (db : Db)
    (s : BillingSession) : Db × BillingSession × Except String Unit :=
  if s.settled then (db, s, .ok ())
  else
    let db := s.countMember info f.member actualQuota db
    let delta := actualQuota - s.preConsumedQuota
    if delta = 0 then (db, { s with settled := true }, .ok ())
    else match if s.fundingSettled then .ok db else s.funding.settle db delta f.funding with
      | .error e => (db, s, .error e)
      | .ok db =>
        let s := { s with fundingSettled := true, settled := true }
        if info.isPlayground then (db, s, .ok ())
        else match db.adjustTokenQuota info.tokenId delta f.token with
          | .ok db => (db, s, .ok ())
          | .error e => (db, s, .error e)

def needsRefundLocked (s : BillingSession) : Bool :=
  if s.settled || s.refunded || s.fundingSettled then false
  else if 0 < s.tokenConsumed then true
  else match s.funding with
    | .subscription _ _ _ _ preConsumed => 0 < preConsumed
    | _ => false

/-- `Refund` up to its goroutine: the session after it, and whether the goroutine is started. -/
def refund (s : BillingSession) : BillingSession × Bool :=
  if s.settled || s.refunded || !s.needsRefundLocked then (s, false)
  else ({ s with refunded := true }, true)

/-- The goroutine of `Refund`; its errors are only logged. -/
def refundJob (f : RefundJobFaults) (db : Db) (s : BillingSession) : Db :=
  let db := (s.funding.refund db f.wallet [f.first, f.second, f.third]).1
  if 0 < s.tokenConsumed ∧ info.isPlayground = false then
    match db.increaseTokenQuota info.tokenId s.tokenConsumed f.token with
    | .ok db => db
    | .error _ => db
  else db

end BillingSession

/-- `PostConsumeQuota`: the charge by a delta where there is no session. -/
def postConsumeQuota (f : SettleFaults) (source : BillingSource) (subscriptionId : ℕ) (quota : ℤ)
    (db : Db) : Db × Except String Unit :=
  let funded :=
    if source = .subscription then
      if subscriptionId = 0 then .error "subscription id is missing"
      else if quota = 0 then .ok db
      else Funding.adjustSub db subscriptionId quota f.funding
    else db.adjustUserQuota info.userId quota f.funding
  match funded with
  | .error e => (db, .error e)
  | .ok db =>
    if info.isPlayground then (db, .ok ())
    else match db.adjustTokenQuota info.tokenId quota f.token with
      | .ok db => (db, .ok ())
      | .error e => (db, .error e)

/-- What `syncRelayInfo` leaves on the request. -/
structure BillingFields where
  finalPreConsumedQuota : ℤ
  billingSource : BillingSource
  subscriptionId : ℕ
  deriving DecidableEq, Repr

def syncRelayInfo : Option BillingSession → BillingFields
  | none => ⟨0, .none, 0⟩
  | some s =>
    ⟨s.preConsumedQuota, s.funding.source,
      match s.funding with
      | .wallet _ _ => 0
      | .subscription _ _ _ subscriptionId _ => subscriptionId
      | .team _ _ _ subscriptionId _ => subscriptionId⟩

/-- `SettleBilling`, through the session where there is one. -/
def settleBilling (f : SettleFaults) (actualQuota : ℤ) (db : Db) (session : Option BillingSession) :
    Db × Option BillingSession × Except String Unit :=
  match session with
  | some s =>
    let r := s.settle info f actualQuota db
    (r.1, some r.2.1, r.2.2)
  | none =>
    let fields := syncRelayInfo none
    let delta := actualQuota - fields.finalPreConsumedQuota
    if delta ≠ 0 then
      let r := postConsumeQuota info f fields.billingSource fields.subscriptionId delta db
      (r.1, none, r.2)
    else (db, none, .ok ())

end AggreApi
