import AggreApi.Subscription
import AggreApi.Lib.Run

/-!
# Subscription transactions side by side

Any number of calls of the four functions that move a subscription's used amount, each cut where
others can come in between: after a `SELECT` it holds the rows as it read them, and its `Save`
writes a whole row back. Nothing is locked by the `SELECT`, and a `Save` is seen by the others once
it is committed. The sum of what has been committed to each row is kept beside the tables.
-/

namespace AggreApi

inductive SubCall
  | preConsumeUser (requestId : String) (userId : ℕ) (amount : ℤ)
  | preConsumeTeam (requestId : String) (teamId : ℕ) (amount : ℤ)
  | postConsume (userSubscriptionId : ℕ) (delta : ℤ)
  | refund (requestId : String)
  deriving DecidableEq, Repr

inductive SubProc
  | calling (c : SubCall)
  | debiting (env : SubscriptionEnv) (owner : PreConsumeOwner) (requestId : String) (amount : ℤ)
      (subs : List UserSubscription)
  | returning (record : SubscriptionPreConsumeRecord)
  | adjusting (delta : ℤ) (sub : UserSubscription)
      (record : Option SubscriptionPreConsumeRecord)
  | marking (record : SubscriptionPreConsumeRecord)
  | ended

/-- The call at `proc` takes its next step. -/
structure SubEvent where
  proc : ℕ
  env : SubscriptionEnv
  faults : PreConsumeFaults
  err : Option String

structure SubStep where
  db : Subscriptions
  proc : SubProc
  commit : Option (ℕ × ℤ)

namespace SubProc

/-- The checks and the `SELECT`s of a pre-consume. A request that has its record writes nothing. -/
def select (e : SubEvent) (owner : PreConsumeOwner) (requestId : String) (amount : ℤ)
    (db : Subscriptions) : SubProc :=
  if isBlank requestId || amount ≤ 0 then .ended
  else match e.faults.findRecord, db.records.find requestId with
    | none, none =>
      match e.faults.findSubs, activeSubscriptions e.env owner db with
      | false, s :: ss => .debiting e.env owner requestId amount (s :: ss)
      | _, _ => .ended
    | _, _ => .ended

def selectRow (e : SubEvent) (id : ℕ) (delta : ℤ)
    (record : Option SubscriptionPreConsumeRecord) (db : Subscriptions) : SubProc :=
  if id = 0 then .ended
  else match e.err, db.subs.find id with
    | none, some sub => .adjusting delta sub record
    | _, _ => .ended

def selectRecord (e : SubEvent) (requestId : String) (db : Subscriptions) : SubProc :=
  if isBlank requestId then .ended
  else match e.err, db.records.find requestId with
    | none, some record => if record.status = .refunded then .ended else .returning record
    | _, _ => .ended

def advance (e : SubEvent) (db : Subscriptions) : SubProc → SubStep
  | .calling (.preConsumeUser requestId userId amount) =>
    ⟨db, if userId = 0 then .ended else select e (userOwner userId) requestId amount db, none⟩
  | .calling (.preConsumeTeam requestId teamId amount) =>
    ⟨db, if teamId = 0 then .ended else select e (teamOwner teamId) requestId amount db, none⟩
  | .calling (.postConsume id delta) =>
    ⟨db, if delta = 0 then .ended else selectRow e id delta none db, none⟩
  | .calling (.refund requestId) => ⟨db, selectRecord e requestId db, none⟩
  | .debiting env owner requestId amount subs =>
    match preConsumeLoop env owner e.faults requestId amount subs db, e.faults.commit with
    | some (.ok (db', r)), none =>
      ⟨db', .ended,
        if (db.records.find requestId).isNone then some (r.userSubscriptionId, amount) else none⟩
    | _, _ => ⟨db, .ended, none⟩
  | .returning record =>
    ⟨db, if record.preConsumed ≤ 0 then .marking record
      else selectRow e record.userSubscriptionId (-record.preConsumed) (some record) db, none⟩
  | .adjusting delta sub record =>
    match e.err, sub.adjust delta with
    | none, .ok sub' =>
      ⟨{ db with subs := db.subs.put sub' }, record.elim .ended .marking, some (sub.id, delta)⟩
    | _, _ => ⟨db, .ended, none⟩
  | .marking record =>
    match e.err with
    | none =>
      ⟨{ db with records := db.records.put { record with status := .refunded } }, .ended, none⟩
    | some _ => ⟨db, .ended, none⟩
  | .ended => ⟨db, .ended, none⟩

end SubProc

structure SubRace where
  db : Subscriptions
  procs : List SubProc
  committed : ℕ → ℤ

namespace SubRace

def init (db : Subscriptions) (calls : List SubCall) : SubRace :=
  ⟨db, calls.map .calling, fun _ => 0⟩

def used (s : SubRace) (id : ℕ) : ℤ := s.db.subs.col UserSubscription.amountUsed id

def step (s : SubRace) (e : SubEvent) : SubRace :=
  match s.procs[e.proc]? with
  | none => s
  | some p =>
    let r := p.advance e s.db
    { db := r.db
      procs := s.procs.set e.proc r.proc
      committed := match r.commit with
        | some (id, delta) => Function.update s.committed id (s.committed id + delta)
        | none => s.committed }

end SubRace

end AggreApi
