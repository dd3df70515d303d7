import AggreApi.Lib.Procs
import AggreApi.Lib.Run

/-!
# Batched accounting

The counters of users, tokens and channels, the calls that change them, and the stores and the
goroutine of batch updates. Each `addNewRecord`, each look at a store, each swap of one and each
`UPDATE` is a step.
-/

namespace AggreApi

inductive Counter
  | userQuota (id : ℕ)
  | userUsedQuota (id : ℕ)
  | userRequestCount (id : ℕ)
  | tokenRemainQuota (id : ℕ)
  | tokenUsedQuota (id : ℕ)
  | channelUsedQuota (id : ℕ)
  deriving DecidableEq, Repr

/-- The stored values, and also what a statement adds to them. -/
abbrev Counters := Counter → ℤ

namespace Counters

def increaseUserQuota (id : ℕ) (quota : ℤ) : Counters := Pi.single (.userQuota id) quota

def decreaseUserQuota (id : ℕ) (quota : ℤ) : Counters := Pi.single (.userQuota id) (-quota)

def increaseTokenQuota (id : ℕ) (quota : ℤ) : Counters :=
  Pi.single (.tokenRemainQuota id) quota + Pi.single (.tokenUsedQuota id) (-quota)

def decreaseTokenQuota (id : ℕ) (quota : ℤ) : Counters :=
  Pi.single (.tokenRemainQuota id) (-quota) + Pi.single (.tokenUsedQuota id) quota

def updateUserUsedQuotaAndRequestCount (id : ℕ) (quota count : ℤ) : Counters :=
  Pi.single (.userUsedQuota id) quota + Pi.single (.userRequestCount id) count

def updateUserUsedQuota (id : ℕ) (quota : ℤ) : Counters := Pi.single (.userUsedQuota id) quota

def updateUserRequestCount (id : ℕ) (count : ℤ) : Counters := Pi.single (.userRequestCount id) count

def updateChannelUsedQuota (id : ℕ) (quota : ℤ) : Counters := Pi.single (.channelUsedQuota id) quota

end Counters

inductive BatchUpdateType
  | userQuota
  | tokenQuota
  | usedQuota
  | channelUsedQuota
  | requestCount
  deriving DecidableEq, Repr

namespace BatchUpdateType

def all : List BatchUpdateType := [userQuota, tokenQuota, usedQuota, channelUsedQuota, requestCount]

/-- The statement of `batchUpdate` for an entry of the store. -/
def update : BatchUpdateType → ℕ → ℤ → Counters
  | userQuota => Counters.increaseUserQuota
  | tokenQuota => Counters.increaseTokenQuota
  | usedQuota => Counters.updateUserUsedQuota
  | channelUsedQuota => Counters.updateChannelUsedQuota
  | requestCount => Counters.updateUserRequestCount

end BatchUpdateType

inductive BatchCall
  | increaseUserQuota (id : ℕ) (quota : ℤ) (db : Bool)
  | decreaseUserQuota (id : ℕ) (quota : ℤ)
  | increaseTokenQuota (id : ℕ) (quota : ℤ)
  | decreaseTokenQuota (id : ℕ) (quota : ℤ)
  | updateUserUsedQuotaAndRequestCount (id : ℕ) (quota : ℤ)
  | updateChannelUsedQuota (id : ℕ) (quota : ℤ)
  deriving DecidableEq

inductive BatchStep
  | update (delta : Counters)
  | addNewRecord (type : BatchUpdateType) (id : ℕ) (value : ℤ)

namespace BatchCall

def direct : BatchCall → Counters
  | increaseUserQuota id quota _ => if quota < 0 then 0 else Counters.increaseUserQuota id quota
  | decreaseUserQuota id quota => if quota < 0 then 0 else Counters.decreaseUserQuota id quota
  | increaseTokenQuota id quota => if quota < 0 then 0 else Counters.increaseTokenQuota id quota
  | decreaseTokenQuota id quota => if quota < 0 then 0 else Counters.decreaseTokenQuota id quota
  | updateUserUsedQuotaAndRequestCount id quota =>
    Counters.updateUserUsedQuotaAndRequestCount id quota 1
  | updateChannelUsedQuota id quota => Counters.updateChannelUsedQuota id quota

def runDirect (db : Counters) (calls : List BatchCall) : Counters :=
  calls.foldl (fun db call => db + call.direct) db

def steps : BatchCall → List BatchStep
  | increaseUserQuota id quota db =>
    if quota < 0 then []
    else if db then [.update (Counters.increaseUserQuota id quota)]
    else [.addNewRecord .userQuota id quota]
  | decreaseUserQuota id quota =>
    if quota < 0 then [] else [.addNewRecord .userQuota id (-quota)]
  | increaseTokenQuota id quota =>
    if quota < 0 then [] else [.addNewRecord .tokenQuota id quota]
  | decreaseTokenQuota id quota =>
    if quota < 0 then [] else [.addNewRecord .tokenQuota id (-quota)]
  | updateUserUsedQuotaAndRequestCount id quota =>
    [.addNewRecord .usedQuota id quota, .addNewRecord .requestCount id 1]
  | updateChannelUsedQuota id quota => [.addNewRecord .channelUsedQuota id quota]

end BatchCall

/-- One of `batchUpdateStores`: ids with their values. -/
abbrev BatchUpdateStore := List (ℕ × ℤ)

/-- The store after `addNewRecord`. -/
def BatchUpdateStore.addNewRecord (id : ℕ) (value : ℤ) : BatchUpdateStore → BatchUpdateStore
  | [] => [(id, value)]
  | e :: store =>
    if e.1 = id then (e.1, e.2 + value) :: store else e :: addNewRecord id value store

/-- Where the goroutine is. -/
inductive FlusherAt
  | idle
  | checking (types : List BatchUpdateType)
  | swapping (types : List BatchUpdateType)
  | flushing (type : BatchUpdateType) (store : BatchUpdateStore) (types : List BatchUpdateType)

/-- A call takes its next step, or the goroutine does. -/
inductive BatchEvent
  | call (i : ℕ)
  | flush (key : ℕ) (fail : Bool)

structure BatchState where
  db : Counters
  stores : BatchUpdateType → BatchUpdateStore
  procs : List (List BatchStep)
  flusher : FlusherAt

namespace BatchState

def init (db : Counters) (calls : List BatchCall) : BatchState :=
  ⟨db, fun _ => [], calls.map BatchCall.steps, .idle⟩

variable (s : BatchState)

def perform : BatchStep → BatchState
  | .update delta => { s with db := s.db + delta }
  | .addNewRecord type id value =>
    { s with
      stores := Function.update s.stores type
        (BatchUpdateStore.addNewRecord id value (s.stores type)) }

/-- A step of `batchUpdate`. -/
def flush (key : ℕ) (fail : Bool) : BatchState :=
  match s.flusher with
  | .idle => { s with flusher := .checking BatchUpdateType.all }
  | .checking [] => { s with flusher := .idle }
  | .checking (type :: types) =>
    if s.stores type = [] then { s with flusher := .checking types }
    else { s with flusher := .swapping BatchUpdateType.all }
  | .swapping [] => { s with flusher := .idle }
  | .swapping (type :: types) =>
    { s with
      stores := Function.update s.stores type []
      flusher := .flushing type (s.stores type) types }
  | .flushing _ [] types => { s with flusher := .swapping types }
  | .flushing type store types =>
    match store[key]? with
    | none => s
    | some e =>
      { s with
        db := if fail then s.db else s.db + type.update e.1 e.2
        flusher := .flushing type (store.eraseIdx key) types }

def step : BatchEvent → BatchState
  | .call i =>
    match s.procs[i]? with
    | some (e :: rest) => { s with procs := s.procs.set i rest }.perform e
    | _ => s
  | .flush key fail => s.flush key fail

def returned : Bool := s.procs.all List.isEmpty

def idle (s : BatchState) : Bool :=
  match s.flusher with
  | .idle => true
  | _ => false

def lost : BatchEvent → Option ℤ
  | .call _ => none
  | .flush key fail =>
    match s.flusher with
    | .flushing _ store _ => if fail then (store[key]?).map Prod.snd else none
    | _ => none

def nothingLost (e : BatchEvent) : Bool := (s.lost e).all (· = 0)

def succeeds : BatchEvent → Bool
  | .call _ => true
  | .flush _ fail => !fail

end BatchState

end AggreApi
