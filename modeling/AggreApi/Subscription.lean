import AggreApi.Lib.Table

/-!
# Subscriptions

The subscription rows of `model/subscription.go` and `model/team_subscription.go` and the four
transactions on their used amount: pre-consume, the adjustment by a delta, the refund of a
pre-consume, and the reset of a period's usage. A transaction that fails leaves the tables as they
were; the refund is the exception, since its adjustment commits on its own.
-/

namespace AggreApi

inductive SubscriptionStatus
  | active
  | expired
  | cancelled
  deriving DecidableEq, Repr

inductive ResetPeriod
  | never
  | daily
  | weekly
  | monthly
  | custom
  deriving DecidableEq, Repr

structure SubscriptionPlan where
  quotaResetPeriod : ResetPeriod
  quotaResetCustomSeconds : ℤ
  deriving DecidableEq, Repr

structure UserSubscription where
  id : ℕ
  userId : ℕ
  teamId : ℕ
  planId : ℕ
  amountTotal : ℤ
  amountUsed : ℤ
  startTime : ℤ
  endTime : ℤ
  status : SubscriptionStatus
  lastResetTime : ℤ
  nextResetTime : ℤ
  deriving DecidableEq, Repr

inductive RecordStatus
  | consumed
  | refunded
  deriving DecidableEq, Repr

structure SubscriptionPreConsumeRecord where
  requestId : String
  userId : ℕ
  userSubscriptionId : ℕ
  preConsumed : ℤ
  status : RecordStatus
  deriving DecidableEq, Repr

structure Subscriptions where
  subs : Table UserSubscription.id
  records : Table SubscriptionPreConsumeRecord.requestId

structure SubscriptionPreConsumeResult where
  userSubscriptionId : ℕ
  preConsumed : ℤ
  amountTotal : ℤ
  amountUsedBefore : ℤ
  amountUsedAfter : ℤ
  deriving DecidableEq, Repr

/-- The starts of the day, the week and the month after a time, in the server's time zone. -/
structure Calendar where
  nextDay : ℤ → ℤ
  nextWeek : ℤ → ℤ
  nextMonth : ℤ → ℤ

/-- The seconds a `time.Duration` adds to a time; it is an `int64` of nanoseconds and wraps. -/
def durationSeconds (seconds : ℤ) : ℤ := (seconds * 1000000000).bmod (2 ^ 64) / 1000000000

def calcNextResetTime (cal : Calendar) (plan : SubscriptionPlan) (base endUnix : ℤ) : ℤ :=
  let capped (next : ℤ) : ℤ := if 0 < endUnix ∧ endUnix < next then 0 else next
  match plan.quotaResetPeriod with
  | .never => 0
  | .daily => capped (cal.nextDay base)
  | .weekly => capped (cal.nextWeek base)
  | .monthly => capped (cal.nextMonth base)
  | .custom =>
    if plan.quotaResetCustomSeconds ≤ 0 then 0
    else capped (base + durationSeconds plan.quotaResetCustomSeconds)

/-- What a transaction takes from outside. -/
structure SubscriptionEnv where
  now : ℤ
  cal : Calendar
  plan : ℕ → Except String SubscriptionPlan
  fuel : ℕ

/-- The last reset time that is due, and the next; `none` where the turns run out. -/
def advanceReset (env : SubscriptionEnv) (plan : SubscriptionPlan) (endUnix : ℤ) :
    ℕ → ℤ → ℤ → Option (ℤ × ℤ)
  | 0, _, _ => none
  | fuel + 1, base, next =>
    if 0 < next ∧ next ≤ env.now then
      advanceReset env plan endUnix fuel next (calcNextResetTime env.cal plan next endUnix)
    else some (base, next)

variable (env : SubscriptionEnv) (sub : UserSubscription)

def maybeResetUserSubscriptionWithPlanTx (plan : SubscriptionPlan) :
    Option (UserSubscription × Bool) :=
  if 0 < sub.nextResetTime ∧ env.now < sub.nextResetTime then some (sub, false)
  else if plan.quotaResetPeriod = .never then some (sub, false)
  else
    let base := if sub.lastResetTime ≤ 0 then sub.startTime else sub.lastResetTime
    let next := calcNextResetTime env.cal plan base sub.endTime
    match advanceReset env plan sub.endTime env.fuel base next with
    | none => none
    | some (base', next') =>
      if 0 < next ∧ next ≤ env.now then
        some ({ sub with amountUsed := 0, lastResetTime := base', nextResetTime := next' }, true)
      else if sub.nextResetTime = 0 ∧ 0 < next' then
        some ({ sub with nextResetTime := next', lastResetTime := base' }, true)
      else some (sub, false)

/-- The row a pre-consume works on: the stored one after the reset that is due. -/
def afterDueReset : Option UserSubscription :=
  match env.plan sub.planId with
  | .ok plan => (maybeResetUserSubscriptionWithPlanTx env sub plan).map Prod.fst
  | .error _ => none

structure PreConsumeOwner where
  selects : UserSubscription → Bool
  noActive : String
  insufficient : ℤ → String
  recordUserId : UserSubscription → ℕ

def userOwner (userId : ℕ) : PreConsumeOwner where
  selects s := s.userId = userId && s.teamId = 0
  noActive := "no active subscription"
  insufficient amount := "subscription quota insufficient, need=" ++ toString amount
  recordUserId _ := userId

def teamOwner (teamId : ℕ) : PreConsumeOwner where
  selects s := s.teamId = teamId
  noActive := "no active team subscription"
  insufficient amount := "team subscription quota insufficient, need=" ++ toString amount
  recordUserId s := s.userId

/-- The errors of the statements of a pre-consume, each `none` where the statement goes through. -/
structure PreConsumeFaults where
  findRecord : Option String
  findSub : Option String
  findSubs : Bool
  reset : ℕ → Option String
  create : Option String
  save : Option String
  commit : Option String

def activeSubscriptions (owner : PreConsumeOwner) (db : Subscriptions) : List UserSubscription :=
  (db.subs.rows.filter fun s => owner.selects s && s.status = .active && env.now < s.endTime
    ).insertionSort fun a b => a.endTime < b.endTime ∨ a.endTime = b.endTime ∧ a.id ≤ b.id

/-- Whether a subscription has the amount left; a total of zero is unlimited. -/
def UserSubscription.hasRoom (amount : ℤ) : Bool :=
  sub.amountTotal ≤ 0 || amount ≤ sub.amountTotal - sub.amountUsed

def UserSubscription.debit (amount : ℤ) : UserSubscription :=
  { sub with amountUsed := sub.amountUsed + amount }

def duplicateResult (record : SubscriptionPreConsumeRecord) :
    Except String SubscriptionPreConsumeResult :=
  if record.status = .refunded then .error "subscription pre-consume already refunded"
  else .ok ⟨sub.id, record.preConsumed, sub.amountTotal, sub.amountUsed, sub.amountUsed⟩

def debitCandidate (owner : PreConsumeOwner) (f : PreConsumeFaults) (requestId : String)
    (amount : ℤ) (db : Subscriptions) (sub : UserSubscription) :
    Except String (Subscriptions × SubscriptionPreConsumeResult) :=
  match db.records.find requestId, f.create with
  | some dup, _ => (duplicateResult sub dup).map fun r => (db, r)
  | none, some e => .error e
  | none, none =>
    match f.save with
    | some e => .error e
    | none =>
      .ok ({ subs := db.subs.put (sub.debit amount)
             records := db.records.insert
               ⟨requestId, owner.recordUserId sub, sub.id, amount, .consumed⟩ },
        ⟨sub.id, amount, sub.amountTotal, sub.amountUsed, (sub.debit amount).amountUsed⟩)

/-- Each candidate is reset if it is due, and the first with room is debited; `none` is a reset
that does not come back. -/
def preConsumeLoop (env : SubscriptionEnv) (owner : PreConsumeOwner) (f : PreConsumeFaults)
    (requestId : String) (amount : ℤ) : List UserSubscription → Subscriptions →
    Option (Except String (Subscriptions × SubscriptionPreConsumeResult))
  | [], _ => some (.error (owner.insufficient amount))
  | candidate :: rest, db =>
    match env.plan candidate.planId with
    | .error e => some (.error e)
    | .ok plan =>
      match maybeResetUserSubscriptionWithPlanTx env candidate plan with
      | none => none
      | some (sub, saved) =>
        match saved, f.reset sub.id with
        | true, some e => some (.error e)
        | _, _ =>
          let db := if saved then { db with subs := db.subs.put sub } else db
          if sub.hasRoom amount then some (debitCandidate owner f requestId amount db sub)
          else preConsumeLoop env owner f requestId amount rest db

def preConsumeBody (owner : PreConsumeOwner) (f : PreConsumeFaults) (requestId : String)
    (amount : ℤ) (db : Subscriptions) :
    Option (Except String (Subscriptions × SubscriptionPreConsumeResult)) :=
  match f.findRecord, db.records.find requestId with
  | some e, _ => some (.error e)
  | none, some existing =>
    if existing.status = .refunded then
      some (.error "subscription pre-consume already refunded")
    else match f.findSub, db.subs.find existing.userSubscriptionId with
      | some e, _ => some (.error e)
      | none, none => some (.error "record not found")
      | none, some sub => some ((duplicateResult sub existing).map fun r => (db, r))
  | none, none =>
    match f.findSubs, activeSubscriptions env owner db with
    | true, _ => some (.error owner.noActive)
    | false, [] => some (.error owner.noActive)
    | false, subs => preConsumeLoop env owner f requestId amount subs db

/-- The code points of `unicode.IsSpace`. -/
def isSpace (c : Char) : Bool :=
  let n := c.toNat
  (9 ≤ n && n ≤ 13) || n = 0x20 || n = 0x85 || n = 0xA0 || n = 0x1680 ||
    (0x2000 ≤ n && n ≤ 0x200A) || n = 0x2028 || n = 0x2029 || n = 0x202F || n = 0x205F ||
    n = 0x3000

/-- `strings.TrimSpace(s) == ""`. -/
def isBlank (s : String) : Bool := s.toList.all isSpace

def trimSpace (s : String) : String :=
  String.ofList ((s.toList.dropWhile isSpace).reverse.dropWhile isSpace).reverse

/-- The checks both pre-consumes start with, and the transaction with its commit. -/
def preConsumeSubscription (owner : PreConsumeOwner) (f : PreConsumeFaults) (requestId : String)
    (amount : ℤ) (db : Subscriptions) :
    Option (Except String (Subscriptions × SubscriptionPreConsumeResult)) :=
  if isBlank requestId then some (.error "requestId is empty")
  else if amount ≤ 0 then some (.error "amount must be > 0")
  else match preConsumeBody env owner f requestId amount db, f.commit with
    | some (.ok _), some e => some (.error e)
    | r, _ => r

def preConsumeUserSubscription (f : PreConsumeFaults) (requestId : String) (userId : ℕ) (amount : ℤ)
    (db : Subscriptions) : Option (Except String (Subscriptions × SubscriptionPreConsumeResult)) :=
  if userId = 0 then some (.error "invalid userId")
  else preConsumeSubscription env (userOwner userId) f requestId amount db

def preConsumeTeamSubscription (f : PreConsumeFaults) (requestId : String) (teamId : ℕ) (amount : ℤ)
    (db : Subscriptions) : Option (Except String (Subscriptions × SubscriptionPreConsumeResult)) :=
  if teamId = 0 then some (.error "invalid teamId")
  else preConsumeSubscription env (teamOwner teamId) f requestId amount db

/-- The row after an adjustment: usage does not go below zero, and may not go above the total. -/
def UserSubscription.adjust (delta : ℤ) : Except String UserSubscription :=
  let newUsed := if sub.amountUsed + delta < 0 then 0 else sub.amountUsed + delta
  if 0 < sub.amountTotal ∧ sub.amountTotal < newUsed then
    .error ("subscription used exceeds total, used=" ++ toString newUsed ++ " total=" ++
      toString sub.amountTotal)
  else .ok { sub with amountUsed := newUsed }

variable (db : Subscriptions)

/-- `err` is an error of the read, the save or the commit. -/
def postConsumeUserSubscriptionDelta (userSubscriptionId : ℕ) (delta : ℤ) (err : Option String) :
    Except String Subscriptions :=
  if userSubscriptionId = 0 then .error "invalid userSubscriptionId"
  else if delta = 0 then .ok db
  else match err, db.subs.find userSubscriptionId with
    | some e, _ => .error e
    | none, none => .error "record not found"
    | none, some sub => (sub.adjust delta).map fun sub => { db with subs := db.subs.put sub }

structure RefundFaults where
  find : Option String
  adjust : Option String
  save : Option String

/-- The refund of a pre-consume; the adjustment stays when the save of the record fails. -/
def refundSubscriptionPreConsume (requestId : String) (f : RefundFaults) :
    Subscriptions × Except String Unit :=
  if isBlank requestId then (db, .error "requestId is empty")
  else match f.find, db.records.find requestId with
    | some e, _ => (db, .error e)
    | none, none => (db, .error "record not found")
    | none, some record =>
      if record.status = .refunded then (db, .ok ())
      else
        let adjusted := if record.preConsumed ≤ 0 then .ok db
          else postConsumeUserSubscriptionDelta db record.userSubscriptionId (-record.preConsumed)
            f.adjust
        match adjusted with
        | .error e => (db, .error e)
        | .ok db =>
          match f.save with
          | some e => (db, .error e)
          | none =>
            ({ db with records := db.records.put { record with status := .refunded } }, .ok ())

/-- `refundWithRetry`: up to one attempt for each of the given faults, until one succeeds. -/
def refundWithRetry (db : Subscriptions) (requestId : String) :
    List RefundFaults → Subscriptions × Except String Unit
  | [] => (db, .ok ())
  | [f] => refundSubscriptionPreConsume db requestId f
  | f :: fs =>
    match refundSubscriptionPreConsume db requestId f with
    | (db, .ok _) => (db, .ok ())
    | (db, .error _) => refundWithRetry db requestId fs

def resetSubscription (id : ℕ) : Option Subscriptions :=
  match db.subs.find id with
  | some sub =>
    if 0 < sub.nextResetTime ∧ sub.nextResetTime ≤ env.now ∧ sub.status = .active then
      match env.plan sub.planId with
      | .ok plan => (maybeResetUserSubscriptionWithPlanTx env sub plan).map fun r =>
          if r.2 then { db with subs := db.subs.put r.1 } else db
      | .error _ => some db
    else some db
  | none => some db

end AggreApi
