import AggreApi.HeaderOverride
import AggreApi.Team
import AggreApi.UserGroup

/-!
# The group a token runs in

`AddToken` and `UpdateToken` take the group of a token from the request body, `CreateTeamToken` pins
it to the group of the team's subscription. `TokenAuth` checks the group of a personal token against
the groups its user may use, and lets that of a team-bound token pass.
-/

namespace AggreApi

def tokenStatusEnabled : ℤ := 1

def tokenStatusExpired : ℤ := 3

def tokenStatusExhausted : ℤ := 4

structure ApiToken where
  id : ℕ
  userId : ℕ
  teamId : ℕ := 0
  key : String
  name : String
  status : ℤ := tokenStatusEnabled
  expiredTime : ℤ := -1
  remainQuota : ℤ := 0
  unlimitedQuota : Bool := false
  modelLimitsEnabled : Bool := false
  modelLimits : String := ""
  allowIps : Option String := some ""
  group : String := ""
  crossGroupRetry : Bool := false
  deriving DecidableEq, Repr

/-- The fields of a request body that the two handlers read. -/
structure TokenBody where
  id : ℕ := 0
  name : String := ""
  status : ℤ := 0
  expiredTime : ℤ := 0
  remainQuota : ℤ := 0
  unlimitedQuota : Bool := false
  modelLimitsEnabled : Bool := false
  modelLimits : String := ""
  allowIps : Option String := none
  group : String := ""
  crossGroupRetry : Bool := false
  deriving DecidableEq, Repr

/-- `maxQuotaValue` and `GetMaxUserTokens`. -/
structure TokenEnv where
  maxQuota : ℤ
  maxUserTokens : ℕ

def TokenBody.refusal (env : TokenEnv) (body : TokenBody) : Option String :=
  if 50 < body.name.utf8ByteSize then some "token.name_too_long"
  else if body.unlimitedQuota then none
  else if body.remainQuota < 0 then some "token.quota_negative"
  else if env.maxQuota < body.remainQuota then some "token.quota_exceed_max"
  else none

variable (t : ApiToken)

namespace ApiToken

def edit (body : TokenBody) : ApiToken :=
  { t with
    name := body.name
    expiredTime := body.expiredTime
    remainQuota := body.remainQuota
    unlimitedQuota := body.unlimitedQuota
    modelLimitsEnabled := body.modelLimitsEnabled
    modelLimits := body.modelLimits
    allowIps := body.allowIps
    group := body.group
    crossGroupRetry := body.crossGroupRetry }

def enableRefusal (now : ℤ) : Option String :=
  if t.status = tokenStatusExpired ∧ t.expiredTime ≤ now ∧ t.expiredTime ≠ -1 then
    some "token.expired_cannot_enable"
  else if t.status = tokenStatusExhausted ∧ t.remainQuota ≤ 0 ∧ t.unlimitedQuota = false then
    some "token.exhausted_cannot_enable"
  else none

def getIpLimits : List String :=
  match t.allowIps with
  | none => []
  | some ips =>
    let clean := replaceAll ips " " ""
    if clean = "" then []
    else ((splitChar '\n' clean).map fun ip => replaceAll (trimSpace ip) "," "").filter (· ≠ "")

end ApiToken

def GroupSubscription.endsAfter (a b : GroupSubscription) : Bool :=
  b.endTime < a.endTime || (a.endTime = b.endTime && b.id < a.id)

def latestEnding : List GroupSubscription → Option GroupSubscription
  | [] => none
  | s :: rest => some (((latestEnding rest).filter fun b => b.endsAfter s).getD s)

def getActiveTeamSubscriptionGroup (subs : List GroupSubscription) (teamId : ℕ) (now : ℤ) :
    String :=
  if teamId = 0 then ""
  else
    match latestEnding (subs.filter fun s =>
        s.teamId = teamId && s.status = .active && decide (now < s.endTime)) with
    | none => ""
    | some s => trimSpace s.upgradeGroup

structure TokenDb where
  redisEnabled : Bool
  tokens : Table fun t : ApiToken => t.id
  cache : String → Option ApiToken := fun _ => none
  pending : List ApiToken := []
  pinned : ℕ → String := fun _ => ""

namespace TokenDb

variable (s : TokenDb)

def later : TokenDb := if s.redisEnabled then { s with pending := t :: s.pending } else s

/-- `Insert`; the key has a unique index. -/
def insertToken : Except String TokenDb :=
  if s.tokens.rows.any (·.key = t.key) then .error "duplicate key"
  else .ok { s with tokens := s.tokens.insert t }

/-- `AddToken`, with the key that is drawn for the token. A zero expiry gives way to the column's
default. -/
def addToken (env : TokenEnv) (userId : ℕ) (body : TokenBody) (key : String) :
    Except String TokenDb :=
  match body.refusal env with
  | some e => .error e
  | none =>
    if env.maxUserTokens ≤ (s.tokens.rows.countP (·.userId = userId)) then
      .error "已达到最大令牌数量限制"
    else s.insertToken
      { id := s.tokens.nextId
        userId
        key
        name := body.name
        expiredTime := if body.expiredTime = 0 then -1 else body.expiredTime
        remainQuota := body.remainQuota
        unlimitedQuota := body.unlimitedQuota
        modelLimitsEnabled := body.modelLimitsEnabled
        modelLimits := body.modelLimits
        allowIps := some (body.allowIps.getD "")
        group := body.group
        crossGroupRetry := body.crossGroupRetry }

def getTokenByIds (id userId : ℕ) : Option ApiToken :=
  if id = 0 ∨ userId = 0 then none
  else (s.tokens.find id).filter fun t => t.userId = userId

def updateToken (env : TokenEnv) (userId : ℕ) (statusOnly : Bool) (body : TokenBody) (now : ℤ) :
    Except String TokenDb :=
  match body.refusal env with
  | some e => .error e
  | none =>
    match s.getTokenByIds body.id userId with
    | none => .error "record not found"
    | some t =>
      match if body.status = tokenStatusEnabled then t.enableRefusal now else none with
      | some e => .error e
      | none =>
        let t := if statusOnly then { t with status := body.status } else t.edit body
        .ok (({ s with tokens := s.tokens.put t } : TokenDb).later t)

/-- `CreateTeamToken`, with the teams and subscriptions as they are then. -/
def createTeamToken (teams : TeamDb) (subs : List GroupSubscription) (actor teamId : ℕ)
    (name : String) (userId : ℕ) (key : String) (now : ℤ) : Except String TokenDb :=
  match teams.getTeamAndVerifyRole actor teamId teamRoleAdmin with
  | .error e => .error e
  | .ok team =>
    let name := if trimSpace name = "" then "team-key" else trimSpace name
    let group := getActiveTeamSubscriptionGroup subs team.id now
    if 50 < name.utf8ByteSize then .error "令牌名称过长"
    else if userId ≠ 0 ∧ (teams.liveMember team.id userId).isNone then
      .error "指定用户不是该团队成员"
    else
      ({ s with pinned := Function.update s.pinned s.tokens.nextId group } : TokenDb).insertToken
        { id := s.tokens.nextId
          userId := if userId = 0 then actor else userId
          teamId := team.id
          key
          name
          unlimitedQuota := true
          group }

/-- `ClearStaleTokenGroupsForUser`, for the user's group as it is read then. -/
def clearStaleTokenGroups (setting : GroupSetting) (userId : ℕ) (currentGroup : String) : TokenDb :=
  if userId = 0 ∨ currentGroup = "" ∨ setting.getUserUsableGroups currentGroup = [] then s
  else
    let stale (t : ApiToken) : Bool :=
      t.userId = userId && t.teamId = 0 && t.group ≠ "" && t.group ≠ "auto" &&
        !setting.groupInUserUsableGroups currentGroup t.group
    { s with
      tokens := s.tokens.map (fun t => if stale t then { t with group := "" } else t)
        fun t => by split_ifs <;> rfl }

def getTokenByKey (key : String) : TokenDb × Option ApiToken :=
  match if s.redisEnabled then s.cache key else none with
  | some t => (s, some t)
  | none =>
    match s.tokens.rows.find? fun t => t.key = key with
    | none => (s, none)
    | some t => (s.later t, some t)

/-- `SelectUpdate` of a token that has run out, which is left out where there is a cache. -/
def retireToken (status : ℤ) : TokenDb :=
  if s.redisEnabled then s else { s with tokens := s.tokens.put { t with status } }

def validateUserToken (key : String) (now : ℤ) : TokenDb × Except String ApiToken :=
  if key = "" then (s, .error "未提供令牌")
  else
    match s.getTokenByKey key with
    | (s, none) => (s, .error "无效的令牌")
    | (s, some t) =>
      if t.status = tokenStatusExhausted then
        (s, .error ("该令牌额度已用尽 TokenStatusExhausted[" ++ TeamDb.maskedKey key ++ "]"))
      else if t.status = tokenStatusExpired then (s, .error "该令牌已过期")
      else if t.status ≠ tokenStatusEnabled then (s, .error "该令牌状态不可用")
      else if t.expiredTime ≠ -1 ∧ t.expiredTime < now then
        (s.retireToken t tokenStatusExpired, .error "该令牌已过期")
      else if t.unlimitedQuota = false ∧ t.remainQuota ≤ 0 then
        (s.retireToken t tokenStatusExhausted, .error ("[" ++ TeamDb.maskedKey key ++
          "] 该令牌额度已用尽 !token.UnlimitedQuota && token.RemainQuota = " ++
          toString t.remainQuota))
      else (s, .ok t)

/-- A relay request: the key, the time, whether the address is in a list (`none` for no address),
the cached user (`none` for an error), the settings, the team's cached status, and whether the key
names a channel. -/
structure AuthRequest where
  key : String
  now : ℤ := 0
  ipAllowed : List String → Option Bool := fun _ => some true
  user : ℕ → Option (Bool × String × Bool)
  setting : GroupSetting := {}
  teamStatus : ℕ → Option ℕ := fun _ => some teamStatusActive
  namesChannel : Bool := false

structure AuthContext where
  usingGroup : String
  tokenGroup : String
  tokenTeamId : ℕ
  crossGroupRetry : Bool
  deriving DecidableEq, Repr

def usingGroup (setting : GroupSetting) (userGroup : String) (t : ApiToken) :
    Except String String :=
  if t.group = "" then .ok userGroup
  else if t.teamId = 0 ∧ setting.groupInUserUsableGroups userGroup t.group = false then
    .error ("无权访问 " ++ t.group ++ " 分组")
  else if setting.containsGroupRatio t.group = false ∧ t.group ≠ "auto" then
    .error ("分组 " ++ t.group ++ " 已被弃用")
  else .ok t.group

/-- The rest of `TokenAuth`, for a token that is valid. -/
def setupContext (r : AuthRequest) (t : ApiToken) : Except String AuthContext :=
  if t.getIpLimits ≠ [] ∧ r.ipAllowed t.getIpLimits = none then .error "无法解析客户端 IP 地址"
  else if t.getIpLimits ≠ [] ∧ r.ipAllowed t.getIpLimits = some false then
    .error "您的 IP 不在令牌允许访问的列表中"
  else
    match r.user t.userId with
    | none => .error "user cache"
    | some (enabled, userGroup, isAdmin) =>
      if enabled = false then .error "用户已被封禁"
      else
        match usingGroup r.setting userGroup t with
        | .error e => .error e
        | .ok group =>
          if t.teamId ≠ 0 ∧ r.teamStatus t.teamId ≠ some teamStatusActive then
            .error "团队已被禁用或不存在"
          else if r.namesChannel ∧ isAdmin = false then .error "普通用户不支持指定渠道"
          else .ok ⟨group, t.group, t.teamId, t.crossGroupRetry⟩

def tokenAuth (r : AuthRequest) : TokenDb × Except String AuthContext :=
  match s.validateUserToken r.key r.now with
  | (s, .error e) => (s, .error e)
  | (s, .ok t) => (s, setupContext r t)

def orSame (r : Except String TokenDb) : TokenDb :=
  match r with
  | .ok s' => s'
  | .error _ => s

end TokenDb

/-- The operations on tokens, a request, a pending write to the cache, and the end of an entry. -/
inductive TokenEvent where
  | addToken (userId : ℕ) (body : TokenBody) (key : String)
  | updateToken (userId : ℕ) (statusOnly : Bool) (body : TokenBody) (now : ℤ)
  | createTeamToken (teams : TeamDb) (subs : List GroupSubscription) (actor teamId : ℕ)
      (name : String) (userId : ℕ) (key : String) (now : ℤ)
  | clearStaleTokenGroups (setting : GroupSetting) (userId : ℕ) (currentGroup : String)
  | tokenAuth (r : TokenDb.AuthRequest)
  | cacheSetToken (i : ℕ)
  | cacheDeleteToken (key : String)

def TokenDb.step (env : TokenEnv) (s : TokenDb) : TokenEvent → TokenDb
  | .addToken userId body key => s.orSame (s.addToken env userId body key)
  | .updateToken userId statusOnly body now =>
    s.orSame (s.updateToken env userId statusOnly body now)
  | .createTeamToken teams subs actor teamId name userId key now =>
    s.orSame (s.createTeamToken teams subs actor teamId name userId key now)
  | .clearStaleTokenGroups setting userId currentGroup =>
    s.clearStaleTokenGroups setting userId currentGroup
  | .tokenAuth r => (s.tokenAuth r).1
  | .cacheSetToken i =>
    match s.pending[i]? with
    | none => s
    | some t => { s with cache := Function.update s.cache t.key (some t) }
  | .cacheDeleteToken key => { s with cache := Function.update s.cache key none }

end AggreApi
