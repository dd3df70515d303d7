import AggreApi.Billing

/-!
# Teams and the tokens bound to them

`model/team.go`, `model/team_admin.go` and the handlers of `controller/team.go` over the tables of
teams, members and tokens, with the two caches a relay request reads: the token by its key, and the
status of its team. Deleted rows stay in their tables and are passed by. A relay request goes
through `TokenAuth` (`middleware/auth.go`) and then, with other requests and operations in between,
through `NewBillingSession`.
-/

namespace AggreApi

def teamRoleMember : ℕ := 1
def teamRoleAdmin : ℕ := 10
def teamRoleOwner : ℕ := 100

def teamStatusActive : ℕ := 1
def teamStatusDisabled : ℕ := 2

structure Team where
  id : ℕ
  name : String
  ownerId : ℕ
  status : ℕ
  inviteCode : String
  deleted : Bool
  deriving DecidableEq, Repr

/-- The update of an administrator; an empty name and a status that is neither of the two are
left. -/
def Team.withFields (name : String) (newStatus : ℕ) (t : Team) : Team :=
  { t with
    name := if name = "" then t.name else name
    status := if newStatus = teamStatusActive ∨ newStatus = teamStatusDisabled then newStatus
      else t.status }

theorem Team.withFields_id (name : String) (newStatus : ℕ) (t : Team) :
    (t.withFields name newStatus).id = t.id := rfl

structure TeamMember where
  teamId : ℕ
  userId : ℕ
  role : ℕ
  quotaLimit : ℤ
  usedQuota : ℤ
  deleted : Bool
  deriving DecidableEq, Repr

inductive TokenStatus
  | enabled
  | disabled
  | expired
  | exhausted
  deriving DecidableEq, Repr

/-- A token without its quota columns. -/
structure Token where
  id : ℕ
  userId : ℕ
  teamId : ℕ
  key : String
  name : String
  status : TokenStatus
  expiredTime : ℤ
  unlimitedQuota : Bool
  deleted : Bool
  deriving DecidableEq, Repr

/-- The texts the status of a team is cached as: `1`, `2` and `-1`. -/
inductive CachedTeamStatus
  | active
  | disabled
  | deleted
  deriving DecidableEq, Repr

structure TeamDb where
  redisEnabled : Bool
  teams : Table fun t : Team => t.id
  members : Table fun m : TeamMember => (m.teamId, m.userId)
  tokens : Table fun t : Token => t.id
  tokenCache : String → Option Token
  statusCache : ℕ → Option CachedTeamStatus
  pending : List Token
  requests : List Token
  db : Db

variable (s : TeamDb) (teamId userId actor : ℕ) (cfg : BillingConfig) (t : Token)

namespace TeamDb

def liveTeam (id : ℕ) : Option Team := (s.teams.find id).filter (!·.deleted)

def liveMember : Option TeamMember := (s.members.find (teamId, userId)).filter (!·.deleted)

/-! ## The status of a team -/

def invalidateTeamStatusCache : TeamDb :=
  if s.redisEnabled then { s with statusCache := Function.update s.statusCache teamId none } else s

def writeTeamStatusCache (val : CachedTeamStatus) : TeamDb :=
  if s.redisEnabled then { s with statusCache := Function.update s.statusCache teamId (some val) }
  else s

/-- `GetTeamStatusCached`; `none` is `ErrTeamNotFound`. A status that is neither counts as
active. -/
def getTeamStatusCached : TeamDb × Option ℕ :=
  if teamId = 0 then (s, none)
  else match if s.redisEnabled then s.statusCache teamId else none with
    | some .active => (s, some teamStatusActive)
    | some .disabled => (s, some teamStatusDisabled)
    | some .deleted => (s, none)
    | none =>
      match s.liveTeam teamId with
      | none => (s.writeTeamStatusCache teamId .deleted, none)
      | some t =>
        if t.status = teamStatusDisabled then
          (s.writeTeamStatusCache teamId .disabled, some teamStatusDisabled)
        else (s.writeTeamStatusCache teamId .active, some teamStatusActive)

/-! ## Teams and members -/

/-- `CreateTeamForOwner`, with the invite code that is drawn for the row. -/
def createTeamForOwner (name : String) (ownerId : ℕ) (inviteCode : String) : Except String TeamDb :=
  if trimSpace name = "" then .error "team name required"
  else if ownerId = 0 then .error "owner id required"
  else if s.teams.rows.any (·.inviteCode = inviteCode) then .error "duplicate invite code"
  else
    let id := s.teams.nextId
    if (s.members.find (id, ownerId)).isSome then .error "duplicate member"
    else .ok { s with
      teams := s.teams.insert ⟨id, trimSpace name, ownerId, teamStatusActive, inviteCode, false⟩
      members := s.members.insert ⟨id, ownerId, teamRoleOwner, 0, 0, false⟩ }

def getTeamAndVerifyRole (teamId minRole : ℕ) : Except String Team :=
  if teamId = 0 then .error "无效的团队ID"
  else match s.liveTeam teamId, s.liveMember teamId userId with
    | none, _ => .error "团队不存在"
    | some _, none => .error "你不是该团队的成员"
    | some team, some member => if member.role < minRole then .error "权限不足" else .ok team

/-- The row of a new member; a deleted one still occupies the unique index. -/
def insertMember (role : ℕ) : Except String TeamDb :=
  if (s.members.find (teamId, userId)).isSome then .error "duplicate member"
  else .ok { s with members := s.members.insert ⟨teamId, userId, role, 0, 0, false⟩ }

def addTeamMember (teamId userId : ℕ) (userExists : Bool) : Except String TeamDb :=
  match s.getTeamAndVerifyRole actor teamId teamRoleOwner with
  | .error e => .error e
  | .ok team =>
    if userId = 0 then .error "参数错误"
    else if !userExists then .error "用户不存在"
    else if (s.liveMember team.id userId).isSome then .error "该用户已是团队成员"
    else s.insertMember team.id userId teamRoleMember

def getTeamByInviteCode (code : String) : Option Team :=
  s.teams.rows.find? fun t => t.inviteCode = code && t.status = teamStatusActive && !t.deleted

def joinTeamByInvite (code : String) : Except String TeamDb :=
  if code = "" then .error "邀请码不能为空"
  else match s.getTeamByInviteCode code with
    | none => .error "邀请码无效或团队已停用"
    | some team =>
      if (s.liveMember team.id userId).isSome then .error "你已是该团队的成员"
      else s.insertMember team.id userId teamRoleMember

/-- `AdminAddTeamMember` clears a deleted row of the member first. -/
def adminAddTeamMember (role : ℕ) (userExists : Bool) : Except String TeamDb :=
  if teamId = 0 ∨ userId = 0 then .error "invalid args"
  else
    let role := if role = 0 then teamRoleMember else role
    if role ≠ teamRoleMember ∧ role ≠ teamRoleAdmin then .error "invalid role"
    else if (s.liveTeam teamId).isNone then .error "team not found"
    else if !userExists then .error "user not found"
    else if (s.liveMember teamId userId).isSome then .error "user already a member"
    else ({ s with members := s.members.erase (teamId, userId) } : TeamDb).insertMember
      teamId userId role

def deleteMembers (p : TeamMember → Bool) : TeamDb :=
  { s with members := s.members.map (fun m => { m with deleted := m.deleted || p m }) fun _ => rfl }

def removeTeamMember (teamId userId : ℕ) : Except String TeamDb :=
  match s.getTeamAndVerifyRole actor teamId teamRoleOwner with
  | .error e => .error e
  | .ok team =>
    if userId = 0 then .error "无效的用户ID"
    else if userId = team.ownerId then .error "不能移除团队创建者"
    else .ok (s.deleteMembers fun m => m.teamId = team.id && m.userId = userId)

def adminRemoveTeamMember : Except String TeamDb :=
  if teamId = 0 ∨ userId = 0 then .error "invalid args"
  else match s.liveTeam teamId with
    | none => .error "team not found"
    | some team =>
      if team.ownerId = userId then .error "cannot remove team owner; transfer ownership first"
      else .ok (s.deleteMembers fun m => m.teamId = teamId && m.userId = userId)

def updateMember (limit used : ℤ → ℤ) : TeamDb :=
  { s with
    members := s.members.map
      (fun m => if m.teamId = teamId ∧ m.userId = userId ∧ m.deleted = false then
        { m with quotaLimit := limit m.quotaLimit, usedQuota := used m.usedQuota } else m)
      fun m => by split_ifs <;> rfl }

def setTeamMemberQuotaLimit (limit : ℤ) : TeamDb :=
  s.updateMember teamId userId (fun _ => if limit < 0 then 0 else limit) id

/-- The handler of `SetTeamMemberQuotaLimit`. -/
def setTeamMemberQuota (teamId userId : ℕ) (limit : ℤ) : Except String TeamDb :=
  match s.getTeamAndVerifyRole actor teamId teamRoleAdmin with
  | .error e => .error e
  | .ok team =>
    if userId = 0 then .error "无效的用户ID"
    else if (s.liveMember team.id userId).isNone then .error "该用户不是团队成员"
    else .ok (s.setTeamMemberQuotaLimit team.id userId (if limit < 0 then 0 else limit))

/-- `IncrTeamMemberUsedQuota`, as a `Settle` calls it. -/
def incrTeamMemberUsedQuota (delta : ℤ) : TeamDb := s.updateMember teamId userId id (· + delta)

def getTeamMemberQuota : Option (ℤ × ℤ) :=
  (s.liveMember teamId userId).map fun m => (m.quotaLimit, m.usedQuota)

def updateTeam (f : Team → Team) (hf : ∀ t, (f t).id = t.id) : TeamDb :=
  { s with
    teams := s.teams.map (fun t => if t.id = teamId then f t else t)
      fun t => by split_ifs <;> simp [hf] }

def deleteTeamRow : TeamDb := s.updateTeam teamId (fun t => { t with deleted := true }) fun _ => rfl

def deleteTeam (teamId : ℕ) : Except String TeamDb :=
  match s.getTeamAndVerifyRole actor teamId teamRoleOwner with
  | .error e => .error e
  | .ok team => .ok ((s.deleteMembers fun m => m.teamId = team.id).deleteTeamRow team.id)

def cancelTeamSubscriptions (db : Db) (teamId : ℕ) (now : ℤ) : Db :=
  { db with
    sub := { db.sub with
      subs := db.sub.subs.map
        (fun r => if r.teamId = teamId ∧ r.status = .active ∧ now < r.endTime then
          { r with status := .cancelled, endTime := now } else r)
        fun r => by split_ifs <;> rfl } }

/-- The transaction of `DeleteTeamCascade`: tokens, members, subscriptions and the team. -/
def cascadeTeam (now : ℤ) : TeamDb :=
  ({ s with
    tokens := s.tokens.map (fun t => { t with deleted := t.deleted || t.teamId = teamId })
      fun _ => rfl
    db := cancelTeamSubscriptions s.db teamId now }.deleteMembers
      fun m => m.teamId = teamId).deleteTeamRow teamId

def deleteTeamCascade (now : ℤ) : Except String TeamDb :=
  if teamId = 0 ∨ (s.liveTeam teamId).isNone then .error "team not found"
  else .ok ((s.cascadeTeam teamId now).invalidateTeamStatusCache teamId)

def adminUpdateTeamFields (newName : String) (newStatus : ℕ) : Except String TeamDb :=
  let name := trimSpace newName
  if teamId = 0 then .error "team not found"
  else if name = "" ∧ newStatus ≠ teamStatusActive ∧ newStatus ≠ teamStatusDisabled then
    .error "nothing to update"
  else if (s.liveTeam teamId).isNone then .error "team not found"
  else .ok ((s.updateTeam teamId (Team.withFields name newStatus)
    (Team.withFields_id name newStatus)).invalidateTeamStatusCache teamId)

/-! ## Tokens -/

/-- `CreateTeamToken`, for the member it names or for the user who asks, with the key that is drawn
for it. -/
def createTeamToken (teamId : ℕ) (name : String) (userId : ℕ) (key : String) :
    Except String TeamDb :=
  match s.getTeamAndVerifyRole actor teamId teamRoleAdmin with
  | .error e => .error e
  | .ok team =>
    let name := if trimSpace name = "" then "team-key" else trimSpace name
    let owner := if userId = 0 then actor else userId
    let token : Token :=
      ⟨s.tokens.nextId, owner, team.id, key, name, .enabled, -1, true, false⟩
    if 50 < name.utf8ByteSize then .error "令牌名称过长"
    else if userId ≠ 0 ∧ (s.liveMember team.id userId).isNone then .error "指定用户不是该团队成员"
    else if s.tokens.rows.any (·.key = key) then .error "duplicate key"
    else .ok { s with tokens := s.tokens.insert token }

/-- `DeleteTeamOwnedToken` of the model. -/
def deleteTeamOwnedTokenRow (tokenId : ℕ) : Except String TeamDb :=
  if teamId = 0 ∨ tokenId = 0 then .error "invalid teamId or tokenId"
  else match (s.tokens.find tokenId).filter fun t => t.teamId = teamId && !t.deleted with
    | none => .error "令牌不存在或不属于该团队"
    | some t => .ok { s with tokens := s.tokens.put { t with deleted := true } }

/-- Its two handlers: of the team's owner or admin, and (`none`) of an administrator. -/
def deleteTeamOwnedToken (actor : Option ℕ) (teamId tokenId : ℕ) : Except String TeamDb :=
  match actor with
  | none => s.deleteTeamOwnedTokenRow teamId tokenId
  | some actor =>
    match s.getTeamAndVerifyRole actor teamId teamRoleAdmin with
    | .error e => .error e
    | .ok team => s.deleteTeamOwnedTokenRow team.id tokenId

/-! ## A relay request -/

/-- `GetTokenByKey`: a token that is read from its table is on its way to the cache. -/
def getTokenByKey (key : String) : TeamDb × Option Token :=
  match if s.redisEnabled then s.tokenCache key else none with
  | some t => (s, some t)
  | none =>
    match s.tokens.rows.find? fun t => t.key = key && !t.deleted with
    | none => (s, none)
    | some t => (if s.redisEnabled then { s with pending := s.pending ++ [t] } else s, some t)

/-- `SelectUpdate` of a token that has run out, which is left to the cache where there is one. -/
def retireToken (status : TokenStatus) : TeamDb :=
  if s.redisEnabled then s else { s with tokens := s.tokens.put { t with status := status } }

def maskedKey (key : String) : String :=
  "sk-" ++ String.ofList (key.toList.take 3) ++ "***" ++
    String.ofList (key.toList.drop (key.length - 3))

/-- `ValidateUserToken`; `remainQuota` is what the row or the cached copy says. -/
def validateUserToken (key : String) (remainQuota now : ℤ) : TeamDb × Except String Token :=
  if key = "" then (s, .error "未提供令牌")
  else match s.getTokenByKey key with
    | (s, none) => (s, .error "无效的令牌")
    | (s, some t) =>
      if t.status = .exhausted then
        (s, .error ("该令牌额度已用尽 TokenStatusExhausted[" ++ maskedKey key ++ "]"))
      else if t.status = .expired then (s, .error "该令牌已过期")
      else if t.status ≠ .enabled then (s, .error "该令牌状态不可用")
      else if t.expiredTime ≠ -1 ∧ t.expiredTime < now then
        (s.retireToken t .expired, .error "该令牌已过期")
      else if t.unlimitedQuota = false ∧ remainQuota ≤ 0 then
        (s.retireToken t .exhausted, .error ("[" ++ maskedKey key ++
          "] 该令牌额度已用尽 !token.UnlimitedQuota && token.RemainQuota = " ++
          toString remainQuota))
      else (s, .ok t)

def setupContextForToken : TeamDb × Except String Token :=
  if 0 < t.teamId then
    match s.getTeamStatusCached t.teamId with
    | (s, some status) =>
      if status = teamStatusActive then (s, .ok t) else (s, .error "团队已被禁用或不存在")
    | (s, none) => (s, .error "团队已被禁用或不存在")
  else (s, .ok t)

/-- `TokenAuth`; `refusal` is the answer of the checks of the address, the user and the group. -/
def tokenAuth (key : String) (remainQuota now : ℤ) (refusal : Option String) :
    TeamDb × Except String Token :=
  match s.validateUserToken key remainQuota now with
  | (s, .error e) => (s, .error e)
  | (s, .ok t) =>
    match refusal with
    | some e => (s, .error e)
    | none => s.setupContextForToken t

structure RelayCall where
  env : SubscriptionEnv
  reads : BillingReads
  quotaErr : Bool
  faults : OpenFaults
  info : RelayInfo
  quota : ℤ

/-- `NewBillingSession` for a token: the subscription and the member are looked up as they are
now. -/
def openSession (s : TeamDb) (t : Token) (c : RelayCall) :
    Option (Db × Except ApiError BillingSession) :=
  let active := !(activeSubscriptions c.env (teamOwner t.teamId) s.db.sub).isEmpty
  let reads : BillingReads :=
    { c.reads with
      hasActiveTeamSubscription := c.reads.hasActiveTeamSubscription.map fun _ => active
      teamMemberQuota := if c.quotaErr then none else s.getTeamMemberQuota t.teamId t.userId }
  newBillingSession cfg c.env reads c.faults
    { c.info with userId := t.userId, tokenId := t.id, tokenTeamId := t.teamId } c.quota s.db

/-- The team is there and not disabled, the token is there, and its holder is a member with quota
left. -/
def entitled : Bool :=
  (s.liveTeam t.teamId).any (fun team => team.status ≠ teamStatusDisabled) &&
    (s.tokens.find t.id).any (!·.deleted) &&
    (s.liveMember t.teamId t.userId).any fun m =>
      m.quotaLimit = 0 || m.usedQuota < m.quotaLimit

end TeamDb

/-- The operations on teams, the two halves of a request, a `Settle`, other writes, the goroutines
of the token cache, and the end of a cache entry. -/
inductive TeamEvent
  | createTeam (name : String) (ownerId : ℕ) (inviteCode : String)
  | addTeamMember (actor teamId userId : ℕ) (userExists : Bool)
  | joinTeamByInvite (userId : ℕ) (code : String)
  | adminAddTeamMember (teamId userId role : ℕ) (userExists : Bool)
  | removeTeamMember (actor teamId userId : ℕ)
  | adminRemoveTeamMember (teamId userId : ℕ)
  | setTeamMemberQuota (actor teamId userId : ℕ) (limit : ℤ)
  | deleteTeam (actor teamId : ℕ)
  | deleteTeamCascade (teamId : ℕ) (now : ℤ)
  | adminUpdateTeamFields (teamId : ℕ) (newName : String) (newStatus : ℕ)
  | createTeamToken (actor teamId : ℕ) (name : String) (userId : ℕ) (key : String)
  | deleteTeamOwnedToken (actor : Option ℕ) (teamId tokenId : ℕ)
  | auth (key : String) (remainQuota now : ℤ) (refusal : Option String)
  | bill (i : ℕ) (c : TeamDb.RelayCall)
  | used (teamId userId : ℕ) (delta : ℤ)
  | outside (db : Db)
  | cacheToken (i : ℕ)
  | tokenExpires (key : String)
  | statusExpires (teamId : ℕ)

namespace TeamDb

def init (redisEnabled : Bool) (db : Db) : TeamDb where
  redisEnabled := redisEnabled
  teams := ⟨[], List.nodup_nil⟩
  members := ⟨[], List.nodup_nil⟩
  tokens := ⟨[], List.nodup_nil⟩
  tokenCache := fun _ => none
  statusCache := fun _ => none
  pending := []
  requests := []
  db := db

def apply (r : Except String TeamDb) : TeamDb :=
  match r with
  | .ok s' => s'
  | .error _ => s

def step (s : TeamDb) : TeamEvent → TeamDb
  | .createTeam name ownerId inviteCode => s.apply (s.createTeamForOwner name ownerId inviteCode)
  | .addTeamMember actor teamId userId userExists =>
    s.apply (s.addTeamMember actor teamId userId userExists)
  | .joinTeamByInvite userId code => s.apply (s.joinTeamByInvite userId code)
  | .adminAddTeamMember teamId userId role userExists =>
    s.apply (s.adminAddTeamMember teamId userId role userExists)
  | .removeTeamMember actor teamId userId => s.apply (s.removeTeamMember actor teamId userId)
  | .adminRemoveTeamMember teamId userId => s.apply (s.adminRemoveTeamMember teamId userId)
  | .setTeamMemberQuota actor teamId userId limit =>
    s.apply (s.setTeamMemberQuota actor teamId userId limit)
  | .deleteTeam actor teamId => s.apply (s.deleteTeam actor teamId)
  | .deleteTeamCascade teamId now => s.apply (s.deleteTeamCascade teamId now)
  | .adminUpdateTeamFields teamId newName newStatus =>
    s.apply (s.adminUpdateTeamFields teamId newName newStatus)
  | .createTeamToken actor teamId name userId key =>
    s.apply (s.createTeamToken actor teamId name userId key)
  | .deleteTeamOwnedToken actor teamId tokenId =>
    s.apply (s.deleteTeamOwnedToken actor teamId tokenId)
  | .auth key remainQuota now refusal =>
    match s.tokenAuth key remainQuota now refusal with
    | (s, .ok t) => { s with requests := s.requests ++ [t] }
    | (s, .error _) => s
  | .bill i c =>
    match s.requests[i]? with
    | none => s
    | some t =>
      match s.openSession cfg t c with
      | none => s
      | some (db, _) => { s with db := db, requests := s.requests.eraseIdx i }
  | .used teamId userId delta => s.incrTeamMemberUsedQuota teamId userId delta
  | .outside db => { s with db := db }
  | .cacheToken i =>
    match s.pending[i]? with
    | none => s
    | some t =>
      { s with
        tokenCache := Function.update s.tokenCache t.key (some t)
        pending := s.pending.eraseIdx i }
  | .tokenExpires key => { s with tokenCache := Function.update s.tokenCache key none }
  | .statusExpires teamId => { s with statusCache := Function.update s.statusCache teamId none }

/-- Whether the event, if it opens a session for a token of a team, does so for one that may be
used. -/
def sound (s : TeamDb) : TeamEvent → Bool
  | .bill i c => (s.requests[i]?).all fun t => t.teamId = 0 ||
    !(s.openSession cfg t c).any (·.2.isOk) || s.entitled t
  | _ => true

end TeamDb

end AggreApi
