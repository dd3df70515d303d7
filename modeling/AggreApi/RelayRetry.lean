import AggreApi.GroupSetting
import AggreApi.ChannelCache

/-!
# The relay retry loop

`Distribute` selects the channel of the first attempt, and the loop of `Relay` one for each later
attempt. The counter of the loop is reset from inside by `CacheGetRandomSatisfiedChannel`, which
also keeps the index of the current automatic group in the request's context.
-/

namespace AggreApi

/-- `RetryParam`, without the context. -/
structure RetryParam where
  tokenGroup : String
  modelName : String
  retry : ℕ := 0
  resetNextTry : Bool := false
  deriving DecidableEq, Repr

namespace RetryParam

def increaseRetry (p : RetryParam) : RetryParam :=
  if p.resetNextTry then { p with resetNextTry := false } else { p with retry := p.retry + 1 }

end RetryParam

structure SelectContext where
  userGroup : String
  crossGroupRetry : Bool := false
  autoGroupIndex : Option ℕ := none
  autoGroup : Option String := none
  affinitySkip : Bool := false
  specificChannel : Bool := false
  deriving DecidableEq, Repr

/-- What selection depends on besides the request. -/
structure SelectEnv where
  setting : GroupSetting := {}
  store : ChannelStore
  retryTimes : ℕ

/-- What `CacheGetRandomSatisfiedChannel` returns, with the context and the parameter it leaves. -/
structure Selection where
  channel : Option Channel
  selectGroup : String
  err : Option String
  ctx : SelectContext
  param : RetryParam

namespace SelectEnv

variable (env : SelectEnv)

/-- The walk through the groups from index `i` on; the retry counter matters at `start` only. -/
def searchAutoGroups (start draw : ℕ) :
    ℕ → List String → SelectContext → RetryParam → Selection
  | _, [], ctx, param => ⟨none, param.tokenGroup, none, ctx, param⟩
  | i, autoGroup :: rest, ctx, param =>
    let priorityRetry := if start < i then 0 else param.retry
    match (env.store.getRandomSatisfiedChannel autoGroup param.modelName priorityRetry draw).1 with
    | none =>
      searchAutoGroups start draw (i + 1) rest { ctx with autoGroupIndex := some (i + 1) }
        { param with retry := 0 }
    | some ch =>
      if ctx.crossGroupRetry && decide (env.retryTimes ≤ priorityRetry) then
        ⟨some ch, autoGroup, none,
          { ctx with autoGroup := some autoGroup, autoGroupIndex := some (i + 1) },
          { param with retry := 0, resetNextTry := true }⟩
      else
        ⟨some ch, autoGroup, none,
          { ctx with autoGroup := some autoGroup, autoGroupIndex := some i }, param⟩

def cacheGetRandomSatisfiedChannel (ctx : SelectContext) (param : RetryParam) (draw : ℕ) :
    Selection :=
  if param.tokenGroup = "auto" then
    if env.setting.autoGroups = [] then
      ⟨none, param.tokenGroup, some "auto groups is not enabled", ctx, param⟩
    else
      let start := ctx.autoGroupIndex.getD 0
      env.searchAutoGroups start draw start
        ((env.setting.getUserAutoGroup ctx.userGroup).drop start) ctx param
  else
    match env.store.getRandomSatisfiedChannel param.tokenGroup param.modelName param.retry draw with
    | (_, some e) => ⟨none, param.tokenGroup, some e, ctx, param⟩
    | (ch, none) => ⟨ch, param.tokenGroup, none, ctx, param⟩

end SelectEnv

/-- `NewAPIError`, as far as the loop reads it. -/
structure RelayError where
  errorCode : String := ""
  statusCode : ℤ := 500
  skipRetry : Bool := false
  deriving DecidableEq, Repr

def isChannelError (e : RelayError) : Bool := startsWith "channel:" e.errorCode

/-- `shouldMatchStatusCodeRanges`, on ranges in ascending order. -/
def shouldMatchStatusCodeRanges (code : ℤ) : List (ℤ × ℤ) → Bool
  | [] => false
  | (first, last) :: ranges =>
    if code < 100 ∨ 599 < code then false
    else if code < first then false
    else if code ≤ last then true
    else shouldMatchStatusCodeRanges code ranges

def shouldRetryByStatusCode (ranges : List (ℤ × ℤ)) (code : ℤ) : Bool :=
  if code = 504 ∨ code = 524 then false else shouldMatchStatusCodeRanges code ranges

/-- `AutomaticRetryStatusCodeRanges`, as it is unless configured. -/
def defaultRetryRanges : List (ℤ × ℤ) :=
  [(100, 199), (300, 399), (401, 407), (409, 499), (500, 503), (505, 523), (525, 599)]

/-- `shouldRetry`; `retryTimes` is what is left of the counter. -/
def shouldRetry (ranges : List (ℤ × ℤ)) (ctx : SelectContext) (e : RelayError) (retryTimes : ℤ) :
    Bool :=
  if ctx.affinitySkip then false
  else if isChannelError e then true
  else if e.skipRetry then false
  else if retryTimes ≤ 0 then false
  else if ctx.specificChannel then false
  else if 200 ≤ e.statusCode ∧ e.statusCode < 300 then false
  else if e.statusCode < 100 ∨ 599 < e.statusCode then true
  else if e.errorCode = "bad_response_body" then false
  else shouldRetryByStatusCode ranges e.statusCode

/-- `GroupRatioInfo`, whose special ratio is -1 where there is none. -/
structure GroupRatioInfo where
  groupRatio : ℚ := 1
  groupSpecialRatio : ℚ := -1
  hasSpecialRatio : Bool := false
  deriving DecidableEq, Repr

structure PriceInfo where
  userGroup : String
  usingGroup : String
  groupRatioInfo : GroupRatioInfo := {}
  deriving DecidableEq, Repr

def GroupSetting.ratioInfo (s : GroupSetting) (userGroup group : String) : GroupRatioInfo :=
  match s.getGroupGroupRatio userGroup group with
  | some ratio => ⟨ratio, ratio, true⟩
  | none => ⟨s.getGroupRatio group, -1, false⟩

/-- `HandleGroupRatio`: an automatic group in the context becomes the using group. -/
def handleGroupRatio (s : GroupSetting) (ctx : SelectContext) (info : PriceInfo) : PriceInfo :=
  let usingGroup := ctx.autoGroup.getD info.usingGroup
  { info with usingGroup, groupRatioInfo := s.ratioInfo info.userGroup usingGroup }

/-- What decides one pass of the loop. -/
structure Try where
  draw : ℕ := 0
  setupOk : Bool := true
  bodyOk : Bool := true
  answer : Option RelayError := none
  deriving DecidableEq, Repr

structure Attempt where
  group : String
  channel : Channel

/-- `current` is what `Distribute` selected, until the first attempt; `prices` has the group ratio
for each attempt. -/
structure RelayLoop where
  ctx : SelectContext
  param : RetryParam
  info : PriceInfo
  current : Option Attempt
  attempts : List Attempt := []
  prices : List GroupRatioInfo := []
  done : Bool := false

namespace SelectEnv

variable (env : SelectEnv) (ranges : List (ℤ × ℤ))

/-- `getChannel`, with the loop it leaves; `none` where it returns an error. -/
def relayGetChannel (l : RelayLoop) (t : Try) : RelayLoop × Option Attempt :=
  match l.current with
  | some a => ({ l with current := none }, some a)
  | none =>
    let sel := env.cacheGetRandomSatisfiedChannel l.ctx l.param t.draw
    let info := handleGroupRatio env.setting sel.ctx l.info
    let l' := { l with ctx := sel.ctx, param := sel.param, info }
    match sel.err, sel.channel with
    | some _, _ => (l', none)
    | none, none => (l', none)
    | none, some ch => if t.setupOk then (l', some ⟨sel.selectGroup, ch⟩) else (l', none)

/-- One pass of the loop in `Relay`, with the counter checked before it and increased after it. -/
def relayPass (l : RelayLoop) (t : Try) : RelayLoop :=
  if l.done then l
  else if env.retryTimes < l.param.retry then { l with done := true }
  else
    match env.relayGetChannel l t with
    | (l', none) => { l' with done := true }
    | (l', some a) =>
      if !t.bodyOk then { l' with done := true }
      else
        let prices := l'.prices ++ [l'.info.groupRatioInfo]
        let l' := { l' with attempts := l'.attempts ++ [a], prices }
        match t.answer with
        | none => { l' with done := true }
        | some e =>
          if shouldRetry ranges l'.ctx e ((env.retryTimes : ℤ) - l'.param.retry) then
            { l' with param := l'.param.increaseRetry }
          else { l' with done := true }

def distributeSelect (userGroup usingGroup modelName : String) (crossGroupRetry : Bool)
    (draw : ℕ) : Selection :=
  env.cacheGetRandomSatisfiedChannel { userGroup, crossGroupRetry }
    { tokenGroup := usingGroup, modelName } draw

/-- The loop as `Relay` enters it, after the initial selection found a channel. -/
def relayStart (userGroup usingGroup modelName : String) (crossGroupRetry : Bool) (draw : ℕ) :
    Option RelayLoop :=
  let sel := env.distributeSelect userGroup usingGroup modelName crossGroupRetry draw
  match sel.err, sel.channel with
  | none, some ch => some
      { ctx := sel.ctx
        param := { tokenGroup := usingGroup, modelName }
        info := handleGroupRatio env.setting sel.ctx { userGroup, usingGroup }
        current := some ⟨sel.selectGroup, ch⟩ }
  | _, _ => none

end SelectEnv

end AggreApi
