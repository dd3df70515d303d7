import AggreApi.Proofs.Billing
import AggreApi.Proofs.UserGroup
import AggreApi.TokenGroup

/-!
# Tokens stay in their group

A copy of a token (its row, a cached one or one on its way to the cache) comes from an earlier copy
with the same group or none, from an edit of its row, or from its creation.
-/

namespace AggreApi

open Option

variable {t : ApiToken} {userId : ℕ}

namespace TokenDb

variable {env : TokenEnv} {s s' : TokenDb}

def Copy (s : TokenDb) (t : ApiToken) : Prop :=
  t ∈ s.tokens.rows ∨ t ∈ s.pending ∨ ∃ key, s.cache key = some t

def Version (s : TokenDb) (t : ApiToken) : Prop :=
  ∃ t₀, s.Copy t₀ ∧ t.id = t₀.id ∧ t.teamId = t₀.teamId ∧ (t.group = t₀.group ∨ t.group = "")

theorem Copy.version (h : s.Copy t) : s.Version t := ⟨t, h, rfl, rfl, .inl rfl⟩

variable {t' : ApiToken}

theorem copy_later (h : (s.later t).Copy t') : s.Copy t' ∨ t' = t := by
  rw [later] at h
  split_ifs at h
  · rcases h with h | h | h
    · exact .inl (.inl h)
    · rcases List.mem_cons.1 h with rfl | h
      · exact .inr rfl
      · exact .inl (.inr (.inl h))
    · exact .inl (.inr (.inr h))
  · exact .inl h

theorem later_tokens (t : ApiToken) : (s.later t).tokens = s.tokens := by
  rw [later]
  split_ifs <;> rfl

theorem later_pinned (t : ApiToken) : (s.later t).pinned = s.pinned := by
  rw [later]
  split_ifs <;> rfl

theorem copy_put (h : ({ s with tokens := s.tokens.put t } : TokenDb).Copy t') :
    s.Copy t' ∨ t' = t := by
  rcases h with h | h
  · rcases Table.mem_put h with h | ⟨h, -⟩
    · exact .inl (.inl h)
    · exact .inr h
  · exact .inl (.inr h)

variable {id : ℕ}

theorem copy_of_getTokenByIds (h : s.getTokenByIds id userId = some t) : s.Copy t := by
  rw [getTokenByIds, ite_none_left_eq_some] at h
  exact .inl (Table.mem_of_find (filter_eq_some_iff.1 h.2).1)

/-- How a copy in a state comes from the state before. -/
inductive Origin (s s' : TokenDb) (e : TokenEvent) (t : ApiToken) : Prop
  | old (h : s.Version t)
  | edit (userId : ℕ) (body : TokenBody) (now : ℤ) (t₀ : ApiToken)
      (he : e = .updateToken userId false body now)
      (hfind : s.getTokenByIds body.id userId = some t₀) (ht : t = t₀.edit body)
  | created (hid : t.id = s.tokens.nextId) (hrow : (s'.tokens.find t.id).isSome)
      (h : t.teamId = 0 ∨ t.group = s'.pinned t.id)

/-- What a step leaves: the pinned groups of the tokens there are, their rows, and copies with an
origin. -/
structure Follows (s s' : TokenDb) (e : TokenEvent) : Prop where
  pinned : ∀ id ≠ s.tokens.nextId, s'.pinned id = s.pinned id
  rows : ∀ id, (s.tokens.find id).isSome → (s'.tokens.find id).isSome
  copies : ∀ t, s'.Copy t → Origin s s' e t

variable {e : TokenEvent}

theorem Follows.refl (s : TokenDb) (e : TokenEvent) : Follows s s e where
  pinned _ _ := rfl
  rows _ h := h
  copies _ h := .old h.version

theorem follows_orSame {r : Except String TokenDb} (h : ∀ s', r = .ok s' → Follows s s' e) :
    Follows s (s.orSame r) e := by
  cases r with
  | error => exact .refl s e
  | ok s' => exact h s' rfl

theorem Follows.later (h : Follows s s' e) (ht : Origin s s' e t) : Follows s (s'.later t) e where
  pinned id hid := by rw [later_pinned, h.pinned id hid]
  rows id hid := by
    rw [later_tokens]
    exact h.rows id hid
  copies t' ht' := by
    have hto : ∀ {t'}, Origin s s' e t' → Origin s (s'.later t) e t' := by
      rintro t' (h | ⟨userId, body, now, t₀, he, hfind, ht⟩ | ⟨hid, hrow, h⟩)
      · exact .old h
      · exact .edit userId body now t₀ he hfind ht
      · exact .created hid (by rwa [later_tokens]) (by rwa [later_pinned])
    rcases copy_later ht' with hcopy | rfl
    · exact hto (h.copies t' hcopy)
    · exact hto ht

theorem follows_put (ht : Origin s { s with tokens := s.tokens.put t } e t) :
    Follows s { s with tokens := s.tokens.put t } e where
  pinned _ _ := rfl
  rows id hid := by
    rw [Table.put, Table.find_map, isSome_map]
    exact hid
  copies t' ht' := by
    rcases copy_put ht' with hcopy | rfl
    · exact .old hcopy.version
    · exact ht

theorem follows_insertToken {pinned : ℕ → String}
    (hpinned : ∀ id ≠ s.tokens.nextId, pinned id = s.pinned id) (hid : t.id = s.tokens.nextId)
    (ht : t.teamId = 0 ∨ t.group = pinned t.id)
    (h : ({ s with pinned } : TokenDb).insertToken t = .ok s') : Follows s s' e := by
  rw [insertToken] at h
  split_ifs at h
  cases h
  have hnew : s.tokens.find t.id = none := by
    rw [hid]
    exact s.tokens.find_nextId
  refine ⟨hpinned, fun id hrow => ?_, fun t' ht' => ?_⟩
  · obtain ⟨r, hr⟩ := isSome_iff_exists.1 hrow
    exact isSome_iff_exists.2 ⟨r, Table.find_insert_of_some hr t⟩
  · rcases ht' with hrow | hother
    · rcases Table.mem_insert hrow with hold | rfl
      · exact .old (Copy.version (.inl hold))
      · exact .created hid (isSome_iff_exists.2 ⟨t', Table.find_insert_self hnew⟩) ht
    · exact .old (Copy.version (.inr hother))

variable {body : TokenBody} {key : String}

theorem follows_addToken
    (h : s.addToken env userId body key = .ok s') : Follows s s' e := by
  rw [addToken] at h
  split at h
  · cases h
  · split at h
    · cases h
    · exact follows_insertToken (fun _ _ => rfl) rfl (.inl rfl) h

variable {now : ℤ}

theorem follows_createTeamToken {teams : TeamDb} {subs : List GroupSubscription}
    {actor teamId : ℕ} {name : String}
    (h : s.createTeamToken teams subs actor teamId name userId key now = .ok s') :
    Follows s s' e := by
  simp only [createTeamToken] at h
  split at h
  · cases h
  · rename_i team hteam
    generalize hname : (if trimSpace name = "" then "team-key" else trimSpace name) = name' at h
    split at h
    · cases h
    · split at h
      · cases h
      · refine follows_insertToken (fun id hid => ?_) rfl (.inr ?_) h
        · exact Function.update_of_ne hid _ _
        · simp

theorem follows_updateToken {statusOnly : Bool}
    (h : s.updateToken env userId statusOnly body now = .ok s') :
    Follows s s' (.updateToken userId statusOnly body now) := by
  simp only [updateToken] at h
  split at h
  · cases h
  · split at h
    · cases h
    · rename_i t hfind
      split at h
      · cases h
      · cases h
        cases statusOnly with
        | true =>
          have ht : s.Version { t with status := body.status } :=
            ⟨t, copy_of_getTokenByIds hfind, rfl, rfl, .inl rfl⟩
          exact (follows_put (.old ht)).later (.old ht)
        | false =>
          exact (follows_put (.edit userId body now t rfl hfind rfl)).later
            (.edit userId body now t rfl hfind rfl)

theorem follows_clearStaleTokenGroups (setting : GroupSetting) (userId : ℕ)
    (currentGroup : String) : Follows s
    (s.clearStaleTokenGroups setting userId currentGroup) e := by
  rw [clearStaleTokenGroups]
  split
  · exact .refl s e
  · refine ⟨fun _ _ => rfl, fun id hid => ?_, fun t ht => ?_⟩
    · simpa [Table.find_map] using hid
    · rcases ht with hrow | hother
      · obtain ⟨t₀, ht₀, rfl⟩ := List.mem_map.1 hrow
        split
        · exact .old ⟨t₀, .inl ht₀, rfl, rfl, .inr rfl⟩
        · exact .old (Copy.version (.inl ht₀))
      · exact .old (Copy.version (.inr hother))

theorem getTokenByKey_cases (s : TokenDb) (key : String) : s.getTokenByKey key = (s, none) ∨
    ∃ t, s.Copy t ∧ (s.getTokenByKey key = (s, some t) ∨
      s.getTokenByKey key = (s.later t, some t)) := by
  rw [getTokenByKey]
  split
  · rename_i t hcache
    refine .inr ⟨t, .inr (.inr ⟨key, ?_⟩), .inl rfl⟩
    rw [ite_none_right_eq_some] at hcache
    exact hcache.2
  · split
    · exact .inl rfl
    · rename_i t hfind
      exact .inr ⟨t, .inl (List.mem_of_find?_eq_some hfind), .inr rfl⟩

theorem follows_getTokenByKey (s : TokenDb) (key : String) :
    Follows s (s.getTokenByKey key).1 e := by
  rcases s.getTokenByKey_cases key with h | ⟨t, ht, h | h⟩
  · rw [h]
    exact .refl s e
  · rw [h]
    exact .refl s e
  · rw [h]
    exact (Follows.refl s e).later (.old ht.version)

theorem find_put_isSome (h : (s.tokens.find id).isSome) :
    ((s.tokens.put t).find id).isSome := by
  rw [Table.put, Table.find_map, isSome_map]
  exact h

theorem Follows.retireToken (h : Follows s s' e) (ht : s.Copy t) (status : ℤ) :
    Follows s (s'.retireToken t status) e := by
  rw [TokenDb.retireToken]
  split_ifs
  · exact h
  · refine ⟨h.pinned, fun id hrow => find_put_isSome (h.rows id hrow), fun t' ht' => ?_⟩
    rcases copy_put ht' with hcopy | rfl
    · rcases h.copies t' hcopy with hold | ⟨userId, body, now, t₀, he, hfind, ht⟩ | ⟨hid, hrow, hg⟩
      · exact .old hold
      · exact .edit userId body now t₀ he hfind ht
      · exact .created hid (find_put_isSome hrow) hg
    · exact .old ⟨t, ht, rfl, rfl, .inl rfl⟩

theorem validateUserToken_cases (s : TokenDb) (key : String) (now : ℤ) :
    Follows s (s.validateUserToken key now).1 e ∧
      ∀ t, (s.validateUserToken key now).2 = .ok t → s.Copy t := by
  have hfollows := @follows_getTokenByKey e s key
  have hcopy : ∀ t, (s.getTokenByKey key).2 = some t → s.Copy t := by
    intro t ht
    rcases s.getTokenByKey_cases key with h | ⟨t₀, ht₀, h | h⟩ <;> rw [h] at ht
    · cases ht
    · exact some.inj ht ▸ ht₀
    · exact some.inj ht ▸ ht₀
  rw [validateUserToken]
  split
  · exact ⟨.refl s e, fun _ h => absurd h (by simp)⟩
  · rcases hget : s.getTokenByKey key with ⟨s₁, _ | t⟩
    · rw [hget] at hfollows
      exact ⟨hfollows, fun _ h => absurd h (by simp)⟩
    · rw [hget] at hfollows hcopy
      have ht := hcopy t rfl
      simp only
      split_ifs
      · exact ⟨hfollows, fun _ h => absurd h (by simp)⟩
      · exact ⟨hfollows, fun _ h => absurd h (by simp)⟩
      · exact ⟨hfollows, fun _ h => absurd h (by simp)⟩
      · exact ⟨hfollows.retireToken ht _, fun _ h => absurd h (by simp)⟩
      · exact ⟨hfollows.retireToken ht _, fun _ h => absurd h (by simp)⟩
      · exact ⟨hfollows, fun t' h => Except.ok.inj h ▸ ht⟩

theorem tokenAuth_fst (s : TokenDb) (r : AuthRequest) :
    (s.tokenAuth r).1 = (s.validateUserToken r.key r.now).1 := by
  rw [tokenAuth]
  split <;> rename_i h <;> rw [h]

theorem follows_step (env : TokenEnv) (s : TokenDb) (e : TokenEvent) :
    Follows s (s.step env e) e := by
  cases e with
  | addToken => exact follows_orSame fun _ h => follows_addToken h
  | updateToken =>
    exact follows_orSame fun _ h => follows_updateToken h
  | createTeamToken =>
    exact follows_orSame fun _ h => follows_createTeamToken h
  | clearStaleTokenGroups => exact follows_clearStaleTokenGroups _ _ _
  | tokenAuth r =>
    rw [step, tokenAuth_fst]
    exact (s.validateUserToken_cases r.key r.now).1
  | cacheSetToken =>
    simp only [step]
    split
    · exact .refl s _
    · rename_i t ht
      refine ⟨fun _ _ => rfl, fun _ h => h, fun t' ht' => .old (Copy.version ?_)⟩
      rcases ht' with h | h | ⟨key, h⟩
      · exact .inl h
      · exact .inr (.inl h)
      · simp only [Function.update_apply] at h
        split_ifs at h
        · exact .inr (.inl (some.inj h ▸ List.mem_of_getElem? ht))
        · exact .inr (.inr ⟨key, h⟩)
  | cacheDeleteToken =>
    refine ⟨fun _ _ => rfl, fun _ h => h, fun t' ht' => .old (Copy.version ?_)⟩
    rcases ht' with h | h | ⟨key', h⟩
    · exact .inl h
    · exact .inr (.inl h)
    · simp only [step, Function.update_apply] at h
      split_ifs at h
      exact .inr (.inr ⟨key', h⟩)

/-- A token of a team has the group it was pinned to, or none. -/
def Keeps (s : TokenDb) (t : ApiToken) : Prop :=
  t.teamId = 0 ∨ t.group = "" ∨ t.group = s.pinned t.id

/-- All copies do, and have a row. -/
def Inv (s : TokenDb) : Prop := ∀ t, s.Copy t → (s.tokens.find t.id).isSome ∧ s.Keeps t

/-- An edit of a token of a team leaves its group to it. -/
def LeavesGroup (s : TokenDb) : TokenEvent → Prop
  | .updateToken userId statusOnly body _ => statusOnly = true ∨
    ∀ t, s.getTokenByIds body.id userId = some t →
      t.teamId = 0 ∨ body.group = "" ∨ body.group = s.pinned t.id
  | _ => True

theorem inv_step {e : TokenEvent} (h : s.Inv) (he : s.LeavesGroup e) : (s.step env e).Inv := by
  have hf := follows_step env s e
  have hold : ∀ {id}, (s.tokens.find id).isSome → (s.step env e).pinned id = s.pinned id := by
    intro id hid
    refine hf.pinned id ?_
    rintro rfl
    rw [Table.find_nextId] at hid
    cases hid
  intro t ht
  rcases hf.copies t ht with ⟨t₀, hcopy, hid, hteam, hgroup⟩ |
    ⟨userId, body, now, t₀, rfl, hfind, rfl⟩ | ⟨hid, hrow, hg⟩
  · obtain ⟨hrow, hkeeps⟩ := h t₀ hcopy
    rw [Keeps, hid, hteam, hold hrow]
    refine ⟨hf.rows _ hrow, ?_⟩
    rcases hkeeps with hkeeps | hkeeps | hkeeps
    · exact .inl hkeeps
    · rcases hgroup with hgroup | hgroup
      · exact .inr (.inl (hgroup.trans hkeeps))
      · exact .inr (.inl hgroup)
    · rcases hgroup with hgroup | hgroup
      · exact .inr (.inr (hgroup.trans hkeeps))
      · exact .inr (.inl hgroup)
  · obtain ⟨hrow, -⟩ := h t₀ (copy_of_getTokenByIds hfind)
    refine ⟨hf.rows _ hrow, ?_⟩
    rcases he with he | he
    · cases he
    · have hkeeps := he t₀ hfind
      rw [← hold hrow] at hkeeps
      exact hkeeps
  · refine ⟨hrow, ?_⟩
    rcases hg with hg | hg
    · exact .inl hg
    · exact .inr (.inr hg)

/-- The empty tables. -/
def start (redisEnabled : Bool) : TokenDb where
  redisEnabled
  tokens := ⟨[], List.nodup_nil⟩

theorem inv_start (redisEnabled : Bool) : (start redisEnabled).Inv := by
  rintro t (h | h | ⟨key, h⟩)
  · exact absurd h (by simp [start])
  · exact absurd h (by simp [start])
  · exact absurd h (by simp [start])

def Entitled (s : TokenDb) (r : AuthRequest) (t : ApiToken) (userGroup : String)
    (c : AuthContext) : Prop :=
  (t.group = "" → c.usingGroup = userGroup) ∧
  (t.group ≠ "" → t.teamId = 0 → r.setting.groupInUserUsableGroups userGroup c.usingGroup = true) ∧
  (t.group ≠ "" → t.teamId ≠ 0 → c.usingGroup = s.pinned t.id)

variable {r : AuthRequest} {c : AuthContext}

theorem setupContext_ok
    (h : setupContext r t = .ok c) : ∃ enabled userGroup isAdmin,
      r.user t.userId = some (enabled, userGroup, isAdmin) ∧
        usingGroup r.setting userGroup t = .ok c.usingGroup := by
  rw [setupContext] at h
  split at h
  · cases h
  split at h
  · cases h
  split at h
  · cases h
  rename_i enabled userGroup isAdmin huser
  split at h
  · cases h
  split at h
  · cases h
  rename_i group hgroup
  split at h
  · cases h
  split at h
  · cases h
  rw [Except.ok.injEq] at h
  exact ⟨enabled, userGroup, isAdmin, huser, by rw [hgroup, ← h]⟩

theorem entitled_of_usingGroup {userGroup : String}
    (h : usingGroup r.setting userGroup t = .ok c.usingGroup)
    (hkeeps : s.Keeps t) :
    s.Entitled r t userGroup c := by
  rw [usingGroup] at h
  split_ifs at h with hempty hpersonal hratio
  · refine ⟨fun _ => (Except.ok.inj h).symm, fun hne => absurd hempty hne,
      fun hne => absurd hempty hne⟩
  · rw [Except.ok.injEq] at h
    refine ⟨fun hgroup => absurd hgroup hempty, fun _ hteam => ?_, fun _ hteam => ?_⟩
    · rw [← h]
      by_contra hne
      exact hpersonal ⟨hteam, Bool.not_eq_true _ ▸ hne⟩
    · rw [← h]
      rcases hkeeps with hkeeps | hkeeps | hkeeps
      · exact absurd hkeeps hteam
      · exact absurd hkeeps hempty
      · exact hkeeps

/-- In every run whose edits leave the tokens of teams their group, a request that is accepted runs
in a group its token entitles to. -/
theorem using_group_entitled (env : TokenEnv) (redisEnabled : Bool) (es : List TokenEvent)
    (hes : Along (step env) LeavesGroup (start redisEnabled) es) (r : AuthRequest) (c : AuthContext)
    (hok : ((run (step env) (start redisEnabled) es).tokenAuth r).2 = .ok c) :
    ∃ t enabled userGroup isAdmin,
      ((run (step env) (start redisEnabled) es).validateUserToken r.key r.now).2 = .ok t ∧
      r.user t.userId = some (enabled, userGroup, isAdmin) ∧
      (run (step env) (start redisEnabled) es).Entitled r t userGroup c := by
  have hinv : (run (step env) (start redisEnabled) es).Inv :=
    Along.run_inv (fun _ _ h he => inv_step h he) (inv_start redisEnabled) hes
  generalize run (step env) (start redisEnabled) es = s at *
  rw [tokenAuth] at hok
  split at hok
  · cases hok
  · rename_i s' t hvalid
    have ht : (s.validateUserToken r.key r.now).2 = .ok t := by rw [hvalid]
    obtain ⟨enabled, userGroup, isAdmin, huser, hgroup⟩ := setupContext_ok hok
    have hcopy := (s.validateUserToken_cases (e := .tokenAuth r) r.key r.now).2 t ht
    exact ⟨t, enabled, userGroup, isAdmin, ht, huser, entitled_of_usingGroup
      hgroup (hinv t hcopy).2⟩

def sampleTeams : TeamDb where
  redisEnabled := false
  teams := ⟨[⟨5, "team", 7, teamStatusActive, "code", false⟩], List.nodup_singleton _⟩
  members := (⟨[⟨5, 7, teamRoleOwner, 0, 0, false⟩], List.nodup_singleton _⟩ : Table _).insert
    ⟨5, 8, 1, 0, 0, false⟩
  tokens := ⟨[], List.nodup_nil⟩
  tokenCache _ := none
  statusCache _ := none
  pending := []
  requests := []
  db := sampleDb

def sampleTokenEnv : TokenEnv := ⟨1000000, 10⟩

/-- A token is created for the member, while the team's subscription is for `vip`, and the member
edits it. -/
def sampleEdit (group : String) : List TokenEvent :=
  [.createTeamToken sampleTeams [sampleSub 1 5 "vip"] 7 5 "key of 8" 8 "abc" 0,
    .updateToken 8 false
      { id := 1, name := "mine", unlimitedQuota := true, expiredTime := -1, group := group } 0]

def sampleAuth : AuthRequest where
  key := "abc"
  user _ := some (true, "default", false)

theorem using_group_entitled_sample : ∃ t enabled userGroup isAdmin,
    ((run (step sampleTokenEnv) (start false) (sampleEdit "vip")).validateUserToken "abc" 0).2 =
      .ok t ∧
    sampleAuth.user t.userId = some (enabled, userGroup, isAdmin) ∧
    (run (step sampleTokenEnv) (start false) (sampleEdit "vip")).Entitled sampleAuth t userGroup
      ⟨"vip", "vip", 5, false⟩ := by
  refine using_group_entitled sampleTokenEnv false (sampleEdit "vip")
    ⟨trivial, .inr fun t ht => .inr (.inr ?_), trivial⟩ sampleAuth ⟨"vip", "vip", 5, false⟩
    (by decide)
  have hid : t.id = 1 := by
    rw [getTokenByIds, Option.ite_none_left_eq_some] at ht
    exact Table.key_of_find (Option.filter_eq_some_iff.1 ht.2).1
  rw [hid]
  decide

/-- The member gives the token a group that neither the team nor they are entitled to, and it is
accepted. -/
theorem team_token_group_edited :
    ((run (step sampleTokenEnv) (start false) (sampleEdit "svip")).tokenAuth sampleAuth).2 =
      .ok ⟨"svip", "svip", 5, false⟩ ∧
    (run (step sampleTokenEnv) (start false) (sampleEdit "svip")).pinned 1 = "vip" ∧
    sampleAuth.setting.groupInUserUsableGroups "default" "svip" = false := by
  decide

end TokenDb

end AggreApi
