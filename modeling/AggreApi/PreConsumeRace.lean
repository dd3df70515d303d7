import AggreApi.Subscription
import AggreApi.Lib.Run

/-!
# Pre-consumes of one request side by side

Any number of pre-consumes with one request id and one owner, statement by statement. What a
statement writes stays with its transaction until the commit. A `Save` waits while another
transaction holds the row, an insert while another holds the request id; the `SELECT`s take no lock.
-/

namespace AggreApi

inductive PreConsumeTarget
  | user (userId : ℕ)
  | team (teamId : ℕ)
  deriving DecidableEq, Repr

namespace PreConsumeTarget

def owner : PreConsumeTarget → PreConsumeOwner
  | user userId => userOwner userId
  | team teamId => teamOwner teamId

def check (requestId : String) (amount : ℤ) : PreConsumeTarget → Option String
  | user 0 => some "invalid userId"
  | team 0 => some "invalid teamId"
  | _ =>
    if isBlank requestId then some "requestId is empty"
    else if amount ≤ 0 then some "amount must be > 0"
    else none

end PreConsumeTarget

/-- What a transaction has written and not committed yet. -/
structure PendingTx where
  rows : List UserSubscription
  record : Option SubscriptionPreConsumeRecord

namespace PendingTx

def empty : PendingTx := ⟨[], none⟩

def save (tx : PendingTx) (sub : UserSubscription) : PendingTx :=
  { tx with rows := sub :: tx.rows }

def locks (tx : PendingTx) (id : ℕ) : Bool := tx.rows.any fun row => row.id = id

def commit (tx : PendingTx) (db : Subscriptions) : Subscriptions where
  subs := db.subs.putAll tx.rows
  records := tx.record.elim db.records db.records.insert

end PendingTx

/-- The statement a call is before. -/
inductive PreConsumeAt
  | finding
  | reading (existing : SubscriptionPreConsumeRecord)
  | selecting
  | trying (subs : List UserSubscription) (tx : PendingTx)
  | inserting (sub : UserSubscription) (tx : PendingTx)
  | rejected (sub : UserSubscription) (err : String) (tx : PendingTx)
  | saving (sub : UserSubscription) (tx : PendingTx)
  | committing (tx : PendingTx) (result : SubscriptionPreConsumeResult)
  | ended (result : Except String SubscriptionPreConsumeResult)

namespace PreConsumeAt

def tx : PreConsumeAt → PendingTx
  | trying _ tx => tx
  | inserting _ tx => tx
  | rejected _ _ tx => tx
  | saving _ tx => tx
  | committing tx _ => tx
  | _ => .empty

def finish (tx : PendingTx) : Except String SubscriptionPreConsumeResult → PreConsumeAt
  | .ok r => committing tx r
  | .error e => ended (.error e)

end PreConsumeAt

structure PreConsumeCall where
  env : SubscriptionEnv
  amount : ℤ

structure PreConsumeProc where
  call : PreConsumeCall
  pos : PreConsumeAt

/-- The call at `proc` takes its next statement. -/
structure PreConsumeEvent where
  proc : ℕ
  faults : PreConsumeFaults
  err : Option String

namespace PreConsumeProc

def record (requestId : String) (target : PreConsumeTarget) (c : PreConsumeCall)
    (sub : UserSubscription) : SubscriptionPreConsumeRecord :=
  ⟨requestId, target.owner.recordUserId sub, sub.id, c.amount, .consumed⟩

/-- The reset of a candidate that is due; `locked` are the rows other transactions hold. -/
def tryCandidate (c : PreConsumeCall) (f : PreConsumeFaults) (locked : ℕ → Bool)
    (candidate : UserSubscription) (rest : List UserSubscription) (tx : PendingTx) :
    PreConsumeAt :=
  match c.env.plan candidate.planId with
  | .error e => .ended (.error e)
  | .ok plan =>
    match maybeResetUserSubscriptionWithPlanTx c.env candidate plan with
    | none => .trying (candidate :: rest) tx
    | some (sub, saved) =>
      if saved && locked sub.id then .trying (candidate :: rest) tx
      else match saved, f.reset sub.id with
        | true, some e => .ended (.error e)
        | _, _ =>
          let tx := if saved then tx.save sub else tx
          if sub.hasRoom c.amount then .inserting sub tx else .trying rest tx

/-- One statement of a call; `held` says that another transaction has inserted its record. -/
def advance (requestId : String) (target : PreConsumeTarget) (c : PreConsumeCall)
    (e : PreConsumeEvent) (db : Subscriptions) (locked : ℕ → Bool) (held : Bool) :
    PreConsumeAt → PreConsumeAt
  | .finding =>
    match target.check requestId c.amount with
    | some err => .ended (.error err)
    | none =>
      match e.faults.findRecord, db.records.find requestId with
      | some err, _ => .ended (.error err)
      | none, none => .selecting
      | none, some existing =>
        if existing.status = .refunded then
          .ended (.error "subscription pre-consume already refunded")
        else .reading existing
  | .reading existing =>
    match e.faults.findSub, db.subs.find existing.userSubscriptionId with
    | some err, _ => .ended (.error err)
    | none, none => .ended (.error "record not found")
    | none, some sub => .finish .empty (duplicateResult sub existing)
  | .selecting =>
    match e.faults.findSubs, activeSubscriptions c.env target.owner db with
    | false, s :: ss => .trying (s :: ss) .empty
    | _, _ => .ended (.error target.owner.noActive)
  | .trying [] _ => .ended (.error (target.owner.insufficient c.amount))
  | .trying (candidate :: rest) tx => tryCandidate c e.faults locked candidate rest tx
  | .inserting sub tx =>
    if held then .inserting sub tx
    else match db.records.find requestId, e.faults.create with
      | some _, err => .rejected sub (err.getD "duplicate key") tx
      | none, some err => .rejected sub err tx
      | none, none => .saving sub { tx with record := some (record requestId target c sub) }
  | .rejected sub err tx =>
    match e.err, db.records.find requestId with
    | none, some dup => .finish tx (duplicateResult sub dup)
    | _, _ => .ended (.error err)
  | .saving sub tx =>
    if locked sub.id then .saving sub tx
    else match e.faults.save with
      | some err => .ended (.error err)
      | none => .committing (tx.save (sub.debit c.amount))
          ⟨sub.id, c.amount, sub.amountTotal, sub.amountUsed, (sub.debit c.amount).amountUsed⟩
  | .committing _ r =>
    match e.faults.commit with
    | some err => .ended (.error err)
    | none => .ended (.ok r)
  | .ended r => .ended r

def committed (e : PreConsumeEvent) (db : Subscriptions) : PreConsumeAt → Subscriptions
  | .committing tx _ => if e.faults.commit.isNone then tx.commit db else db
  | _ => db

end PreConsumeProc

structure PreConsumeRace where
  db : Subscriptions
  procs : List PreConsumeProc

namespace PreConsumeRace

def init (db : Subscriptions) (calls : List PreConsumeCall) : PreConsumeRace :=
  ⟨db, calls.map fun c => ⟨c, .finding⟩⟩

/-- Whether another transaction than the one at `k` holds a row. -/
def locked (s : PreConsumeRace) (k id : ℕ) : Bool :=
  (s.procs.eraseIdx k).any fun p => p.pos.tx.locks id

def held (s : PreConsumeRace) (k : ℕ) : Bool :=
  (s.procs.eraseIdx k).any fun p => p.pos.tx.record.isSome

def step (requestId : String) (target : PreConsumeTarget) (s : PreConsumeRace)
    (e : PreConsumeEvent) : PreConsumeRace :=
  match s.procs[e.proc]? with
  | none => s
  | some p =>
    let pos := PreConsumeProc.advance requestId target p.call e s.db (s.locked e.proc)
      (s.held e.proc) p.pos
    ⟨PreConsumeProc.committed e s.db p.pos, s.procs.set e.proc ⟨p.call, pos⟩⟩

end PreConsumeRace

end AggreApi
