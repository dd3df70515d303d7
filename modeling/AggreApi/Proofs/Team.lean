import AggreApi.Team
import AggreApi.Proofs.Billing
import AggreApi.Lib.Run

/-!
# Who may use a team's token

What carries the result is that a token in the cache is as the table has it unless its team is gone,
that a status cached as active is so, and that the holder of a live token is a member unless the
team is gone.
-/

namespace AggreApi

open List Table

variable {t : Token} {teamId userId role u actor : ℕ} {team : Team} (f : Team → Team)
  (redisEnabled : Bool)

namespace TeamDb

def LiveAs (s : TeamDb) (t : Token) : Prop :=
  ∃ row, s.tokens.find t.id = some row ∧ row.deleted = false ∧ row.key = t.key ∧
    row.teamId = t.teamId ∧ row.userId = t.userId

def Gone (s : TeamDb) (teamId : ℕ) : Prop :=
  ∃ team, s.teams.find teamId = some team ∧ team.deleted = true

def Active (s : TeamDb) (teamId : ℕ) : Prop :=
  ∃ team, s.teams.find teamId = some team ∧ team.deleted = false ∧
    team.status ≠ teamStatusDisabled

def Joined (s : TeamDb) (teamId userId : ℕ) : Prop :=
  ∃ m, s.members.find (teamId, userId) = some m ∧ m.deleted = false

/-- What holds of a request that has passed the first check. -/
def Admitted (s : TeamDb) (t : Token) : Prop :=
  0 < t.teamId → s.LiveAs t ∧ s.Active t.teamId ∧ s.Joined t.teamId t.userId

variable {s s' : TeamDb}

variable {id : ℕ}

theorem liveTeam_eq_some {t : Team} :
    s.liveTeam id = some t ↔ s.teams.find id = some t ∧ t.deleted = false := by
  simp [liveTeam, Option.filter_eq_some_iff]

variable {m : TeamMember}

theorem liveMember_eq_some : s.liveMember teamId userId = some m ↔
      s.members.find (teamId, userId) = some m ∧ m.deleted = false := by
  simp [liveMember, Option.filter_eq_some_iff]

theorem liveAs_of_mem {row : Token} (hrow : row ∈ s.tokens.rows) (hlive : row.deleted = false) :
    s.LiveAs row :=
  ⟨row, find_of_mem hrow, hlive, rfl, rfl, rfl⟩

theorem Active.not_gone (h : s.Active teamId) : ¬s.Gone teamId := by
  rintro ⟨team, hteam, hdel⟩
  obtain ⟨team', hteam', hlive, -⟩ := h
  rw [hteam] at hteam'
  cases hteam'
  rw [hdel] at hlive
  cases hlive

/-- What the checks of a request rely on. -/
structure Inv (s : TeamDb) : Prop where
  cached : ∀ key t, s.tokenCache key = some t → t.key = key ∧ (s.LiveAs t ∨ s.Gone t.teamId)
  pending : ∀ t ∈ s.pending, s.LiveAs t ∨ s.Gone t.teamId
  status : ∀ id, s.statusCache id = some .active → s.Active id
  holders : ∀ row ∈ s.tokens.rows, row.deleted = false →
    s.Joined row.teamId row.userId ∨ s.Gone row.teamId
  limits : ∀ m ∈ s.members.rows, 0 ≤ m.quotaLimit
  requests : ∀ t ∈ s.requests, s.Admitted t
  off : s.redisEnabled = false → ∀ id, s.statusCache id ≠ some .active

theorem Inv.joined (h : s.Inv) (ht : s.LiveAs t) :
    s.Joined t.teamId t.userId ∨ s.Gone t.teamId := by
  obtain ⟨row, hrow, hlive, -, hteam, huser⟩ := ht
  have := h.holders row (mem_of_find hrow) hlive
  rwa [hteam, huser] at this

/-- What an operation may take away. -/
structure Change (team token : ℕ → Prop) (member : ℕ → ℕ → Prop) (s s' : TeamDb) : Prop where
  redis : s'.redisEnabled = s.redisEnabled
  cache : s'.tokenCache = s.tokenCache
  pending : s'.pending = s.pending
  requests : s'.requests = s.requests
  status : ∀ id, s'.statusCache id = some .active → s.statusCache id = some .active ∧ ¬team id
  gone : ∀ id, s.Gone id → s'.Gone id
  active : ∀ id, s.Active id → s'.Active id ∨ team id
  live : ∀ t, s.LiveAs t → s'.LiveAs t ∨ s'.Gone t.teamId ∨ token t.id
  joined : ∀ t u, s.Joined t u → s'.Joined t u ∨ s'.Gone t ∨ member t u
  holders : ∀ row ∈ s'.tokens.rows, row.deleted = false →
    s.LiveAs row ∨ s'.Joined row.teamId row.userId
  limits : (∀ m ∈ s.members.rows, 0 ≤ m.quotaLimit) → ∀ m ∈ s'.members.rows, 0 ≤ m.quotaLimit

variable {token : ℕ → Prop} {member : ℕ → ℕ → Prop}

theorem Inv.change {team : ℕ → Prop} (h : s.Inv)
    (hc : Change team token member s s')
    (hcached : ∀ key t, s.tokenCache key = some t → s.LiveAs t → ¬token t.id)
    (hpending : ∀ t ∈ s.pending, ¬token t.id)
    (hmember : ∀ t, s.LiveAs t → ¬member t.teamId t.userId)
    (hrequests : ∀ t ∈ s.requests, ¬team t.teamId ∧ ¬token t.id) : s'.Inv := by
  have husable : ∀ t, (s.LiveAs t → ¬token t.id) → s.LiveAs t ∨ s.Gone t.teamId →
      s'.LiveAs t ∨ s'.Gone t.teamId := by
    rintro t ht (hlive | hgone)
    · rcases hc.live t hlive with h' | h' | h'
      · exact .inl h'
      · exact .inr h'
      · exact absurd h' (ht hlive)
    · exact .inr (hc.gone _ hgone)
  refine ⟨fun key t hkey => ?_, fun t ht => ?_, fun id hid => ?_, fun row hrow hlive => ?_,
    hc.limits h.limits, fun t ht hpos => ?_,
    fun hoff id hid => h.off (hc.redis ▸ hoff) id (hc.status id hid).1⟩
  · rw [hc.cache] at hkey
    obtain ⟨hk, hu⟩ := h.cached key t hkey
    exact ⟨hk, husable t (hcached key t hkey) hu⟩
  · rw [hc.pending] at ht
    exact husable t (fun _ => hpending t ht) (h.pending t ht)
  · obtain ⟨hactive, hkeep⟩ := hc.status id hid
    exact (hc.active id (h.status id hactive)).resolve_right hkeep
  · rcases hc.holders row hrow hlive with hold | hnew
    · rcases h.joined hold with hj | hg
      · rcases hc.joined _ _ hj with h' | h' | h'
        · exact .inl h'
        · exact .inr h'
        · exact absurd h' (hmember row hold)
      · exact .inr (hc.gone _ hg)
    · exact .inl hnew
  · rw [hc.requests] at ht
    obtain ⟨hlive, hactive, hjoined⟩ := h.requests t ht hpos
    obtain ⟨hteam, htoken⟩ := hrequests t ht
    have hactive' := (hc.active _ hactive).resolve_right hteam
    refine ⟨?_, hactive', ?_⟩
    · exact (hc.live t hlive).resolve_right fun h' => h'.elim hactive'.not_gone htoken
    · exact (hc.joined _ _ hjoined).resolve_right fun h' =>
        h'.elim hactive'.not_gone (hmember t hlive)

theorem Inv.grow (h : s.Inv)
    (hc : Change (fun _ => False) (fun _ => False) (fun _ _ => False) s s') : s'.Inv :=
  h.change hc (fun _ _ _ _ => not_false) (fun _ _ => not_false) (fun _ _ => not_false)
    fun _ _ => ⟨not_false, not_false⟩

theorem Inv.change_team {team : ℕ → Prop} (h : s.Inv)
    (hc : Change team (fun _ => False) (fun _ _ => False) s s')
    (hrequests : ∀ t ∈ s.requests, ¬team t.teamId) : s'.Inv :=
  h.change hc (fun _ _ _ _ => not_false) (fun _ _ => not_false) (fun _ _ => not_false)
    fun t ht => ⟨hrequests t ht, not_false⟩

theorem Change.of_members
    {ms : Table fun m : TeamMember => (m.teamId, m.userId)}
    (hjoined : ∀ t u, s.Joined t u → ({ s with members := ms } : TeamDb).Joined t u ∨ member t u)
    (hlimits : ∀ m ∈ ms.rows, m ∈ s.members.rows ∨ 0 ≤ m.quotaLimit) :
    Change (fun _ => False) (fun _ => False) member s { s with members := ms } where
  redis := rfl
  cache := rfl
  pending := rfl
  requests := rfl
  status _ h := ⟨h, not_false⟩
  gone _ h := h
  active _ h := .inl h
  live _ h := .inl h
  joined t u h := (hjoined t u h).imp_right .inr
  holders _ hrow hlive := .inl (liveAs_of_mem hrow hlive)
  limits h m hm := (hlimits m hm).elim (h m) id

theorem Change.of_tokens {ts : Table fun t : Token => t.id}
    (hlive : ∀ t, s.LiveAs t → ({ s with tokens := ts } : TeamDb).LiveAs t ∨ token t.id)
    (hholders : ∀ row ∈ ts.rows, row.deleted = false →
      s.LiveAs row ∨ s.Joined row.teamId row.userId) :
    Change (fun _ => False) token (fun _ _ => False) s { s with tokens := ts } where
  redis := rfl
  cache := rfl
  pending := rfl
  requests := rfl
  status _ h := ⟨h, not_false⟩
  gone _ h := h
  active _ h := .inl h
  live t h := (hlive t h).imp_right .inr
  joined _ _ h := .inl h
  holders := hholders
  limits h := h

theorem inv_insertMember (h : s.Inv)
    (hs : s.insertMember teamId userId role = .ok s') : s'.Inv := by
  unfold insertMember at hs
  split at hs
  · cases hs
  cases hs
  refine h.grow (.of_members (fun t u hj => .inl ?_) fun m hm => ?_)
  · obtain ⟨m, hm, hlive⟩ := hj
    exact ⟨m, find_insert_of_some hm _, hlive⟩
  · rcases mem_insert hm with hold | rfl
    · exact .inl hold
    · exact .inr le_rfl

theorem inv_adminAdd (h : s.Inv) (hno : (s.liveMember teamId userId).isSome ≠ true)
    (hs : ({ s with members := s.members.erase (teamId, userId) } : TeamDb).insertMember
      teamId userId role = .ok s') : s'.Inv := by
  refine inv_insertMember (h.grow (.of_members (fun t u hj => .inl ?_) fun m hm => ?_)) hs
  · obtain ⟨m, hm, hlive⟩ := hj
    refine ⟨m, ?_, hlive⟩
    refine (find_erase_of_ne s.members fun hk => ?_).trans hm
    obtain ⟨rfl, rfl⟩ := Prod.mk.inj hk
    rw [liveMember_eq_some.2 ⟨hm, hlive⟩] at hno
    exact hno rfl
  · exact .inl (mem_erase.1 hm).1

theorem joined_updateMember {t : ℕ} (hj : s.Joined t u) (teamId userId : ℕ)
    (limit used : ℤ → ℤ) : (s.updateMember teamId userId limit used).Joined t u := by
  obtain ⟨m, hm, hlive⟩ := hj
  simp only [Joined, updateMember, find_map, hm, Option.map_some, Option.some.injEq,
    exists_eq_left']
  split_ifs <;> exact hlive

theorem inv_updateMember (h : s.Inv) (teamId userId : ℕ) {limit : ℤ → ℤ} (used : ℤ → ℤ)
    (hlimit : ∀ n, 0 ≤ n → 0 ≤ limit n) : (s.updateMember teamId userId limit used).Inv := by
  have hc : Change (fun _ => False) (fun _ => False) (fun _ _ => False) s
      (s.updateMember teamId userId limit used) := by
    refine .of_members (fun t u hj => .inl (joined_updateMember hj _ _ _ _)) fun m hm => ?_
    obtain ⟨m, hold, rfl⟩ := mem_map.1 hm
    split_ifs
    · exact .inr (hlimit _ (h.limits m hold))
    · exact .inl hold
  exact h.grow hc

variable {name code : String}

theorem inv_createTeam (h : s.Inv) {ownerId : ℕ}
    (hs : s.createTeamForOwner name ownerId code = .ok s') : s'.Inv := by
  simp only [createTeamForOwner] at hs
  split_ifs at hs
  cases hs
  refine h.grow ⟨rfl, rfl, rfl, rfl, fun _ hid => ⟨hid, not_false⟩, ?_, ?_, fun _ ht => .inl ht, ?_,
    fun _ hrow hlive => .inl (liveAs_of_mem hrow hlive), ?_⟩
  · rintro id ⟨team, hteam, hdel⟩
    exact ⟨team, find_insert_of_some hteam _, hdel⟩
  · rintro id ⟨team, hteam, hlive⟩
    exact .inl ⟨team, find_insert_of_some hteam _, hlive⟩
  · rintro t u ⟨m, hm, hlive⟩
    exact .inl ⟨m, find_insert_of_some hm _, hlive⟩
  · intro hlimits m hm
    rcases mem_insert hm with hold | rfl
    · exact hlimits m hold
    · exact le_rfl

def unused (s : TeamDb) (teamId userId : ℕ) : Bool :=
  s.tokens.rows.all fun t => t.deleted || !(t.teamId = teamId && t.userId = userId)

variable {p : TeamMember → Bool}

theorem joined_deleteMembers {t : ℕ} (hj : s.Joined t u)
    (hp : ∀ m : TeamMember, m.teamId = t → m.userId = u → p m = false) :
    (s.deleteMembers p).Joined t u := by
  obtain ⟨m, hm, hlive⟩ := hj
  have hkey := key_of_find hm
  obtain ⟨hteam, huser⟩ := Prod.mk.inj hkey
  simp [Joined, deleteMembers, find_map, hm, hlive, hp m hteam huser]

theorem limits_deleteMembers (h : ∀ m ∈ s.members.rows, 0 ≤ m.quotaLimit) :
    ∀ m ∈ (s.deleteMembers p).members.rows, 0 ≤ m.quotaLimit := by
  intro m hm
  obtain ⟨m, hold, rfl⟩ := mem_map.1 hm
  exact h m hold

theorem inv_removeMember (h : s.Inv) (hc : s.unused teamId userId = true) :
    (s.deleteMembers fun m => m.teamId = teamId && m.userId = userId).Inv := by
  have hlost : Change (fun _ => False) (fun _ => False) (fun t u => t = teamId ∧ u = userId) s
      (s.deleteMembers fun m => m.teamId = teamId && m.userId = userId) := by
    refine .of_members (fun t u hj => ?_) fun m hm => ?_
    · by_cases hk : t = teamId ∧ u = userId
      · exact .inr hk
      · refine .inl (joined_deleteMembers hj fun m ht hu => ?_)
        rw [ht, hu]
        simpa using hk
    · obtain ⟨m, hold, rfl⟩ := mem_map.1 hm
      exact .inr (h.limits m hold)
  refine h.change hlost (fun _ _ _ _ => not_false) (fun _ _ => not_false) ?_
    fun _ _ => ⟨not_false, not_false⟩
  rintro t ⟨row, hrow, hlive, -, hteam, huser⟩ ⟨rfl, rfl⟩
  have := all_eq_true.1 hc row (mem_of_find hrow)
  simp [hlive, hteam, huser] at this

/-- No request of the team is between its two checks. -/
def idle (s : TeamDb) (teamId : ℕ) : Bool := s.requests.all fun t => t.teamId ≠ teamId

theorem idle_iff : s.idle teamId = true ↔ ∀ t ∈ s.requests, t.teamId ≠ teamId := by
  simp [idle]

theorem find_updateTeam (s : TeamDb) (teamId : ℕ) (f : Team → Team) (hf : ∀ t, (f t).id = t.id)
    (id : ℕ) : (s.updateTeam teamId f hf).teams.find id =
      (s.teams.find id).map fun t => if t.id = teamId then f t else t := by
  simp [updateTeam, find_map]

theorem find_updateTeam_of_ne (hf : ∀ t, (f t).id = t.id) (hid : id ≠ teamId) :
    (s.updateTeam teamId f hf).teams.find id = s.teams.find id := by
  rw [find_updateTeam]
  rcases ht : s.teams.find id with _ | team
  · rfl
  · have hkey := key_of_find ht
    rw [Option.map_some, if_neg (by rw [hkey]; exact hid)]

theorem find_updateTeam_self (hf : ∀ t, (f t).id = t.id) (ht : s.teams.find teamId = some team) :
    (s.updateTeam teamId f hf).teams.find teamId = some (f team) := by
  have hkey := key_of_find ht
  rw [find_updateTeam, ht, Option.map_some, if_pos hkey]

theorem change_deleteTeamRow (hlive : s.liveTeam teamId = some team)
    (hredis : s'.redisEnabled = s.redisEnabled) (hcache : s'.tokenCache = s.tokenCache)
    (hpending : s'.pending = s.pending) (hrequests : s'.requests = s.requests)
    (hstatus : ∀ id, s'.statusCache id = some .active →
      s.statusCache id = some .active ∧ id ≠ teamId)
    (hteams : s'.teams = (s.deleteTeamRow teamId).teams)
    (htokens : ∀ t, t.teamId ≠ teamId → s.LiveAs t → s'.LiveAs t)
    (hjoined : ∀ t u, t ≠ teamId → s.Joined t u → s'.Joined t u)
    (hholders : ∀ row ∈ s'.tokens.rows, row.deleted = false → s.LiveAs row)
    (hlimits : (∀ m ∈ s.members.rows, 0 ≤ m.quotaLimit) →
      ∀ m ∈ s'.members.rows, 0 ≤ m.quotaLimit) :
    Change (· = teamId) (fun _ => False) (fun _ _ => False) s s' := by
  obtain ⟨hfind, -⟩ := liveTeam_eq_some.1 hlive
  have hself : s'.Gone teamId := by
    have hrow := find_updateTeam_self (fun t => { t with deleted := true }) (fun _ => rfl) hfind
    exact ⟨_, by rw [hteams]; exact hrow, rfl⟩
  have hother : ∀ id, id ≠ teamId → s'.teams.find id = s.teams.find id := by
    intro id hid
    rw [hteams]
    exact find_updateTeam_of_ne _ _ hid
  refine ⟨hredis, hcache, hpending, hrequests, hstatus, fun id hg => ?_, fun id ha => ?_,
    fun t ht => ?_, fun t u hj => ?_, fun row hrow hdel => .inl (hholders row hrow hdel), hlimits⟩
  · by_cases hid : id = teamId
    · exact hid ▸ hself
    · unfold Gone
      rw [hother id hid]
      exact hg
  · by_cases hid : id = teamId
    · exact .inr hid
    · unfold Active
      rw [hother id hid]
      exact .inl ha
  · by_cases hid : t.teamId = teamId
    · exact .inr (.inl (hid ▸ hself))
    · exact .inl (htokens t hid ht)
  · by_cases hid : t = teamId
    · exact .inr (.inl (hid ▸ hself))
    · exact .inl (hjoined t u hid hj)

theorem liveTeam_of_verified {minRole : ℕ}
    (h : s.getTeamAndVerifyRole actor teamId minRole = .ok team) :
    s.liveTeam teamId = some team ∧ team.id = teamId ∧ s.Joined teamId actor := by
  unfold getTeamAndVerifyRole at h
  split_ifs at h
  split at h
  · cases h
  · cases h
  rename_i team' member hteam hmember
  split_ifs at h
  cases h
  have hkey := key_of_find (liveTeam_eq_some.1 hteam).1
  exact ⟨hteam, hkey, member, liveMember_eq_some.1 hmember⟩

theorem joined_deleteTeamMembers {t : ℕ} (ht : t ≠ teamId) (hj : s.Joined t u) :
    (s.deleteMembers fun m => m.teamId = teamId).Joined t u :=
  joined_deleteMembers hj fun m hm _ => by simpa [hm] using ht

theorem inv_deleteTeam (h : s.Inv)
    (hcached : s.statusCache teamId ≠ some .active) (hidle : s.idle teamId = true)
    (hs : s.deleteTeam actor teamId = .ok s') : s'.Inv := by
  unfold deleteTeam at hs
  split at hs
  · cases hs
  rename_i team hverified
  obtain ⟨hlive, hid, -⟩ := liveTeam_of_verified hverified
  cases hs
  rw [hid]
  have hc : Change (· = teamId) (fun _ => False) (fun _ _ => False) s
      ((s.deleteMembers fun m => m.teamId = teamId).deleteTeamRow teamId) :=
    change_deleteTeamRow hlive rfl rfl rfl rfl
      (fun id hstatus => ⟨hstatus, fun he => hcached (he ▸ hstatus)⟩) rfl (fun _ _ ht => ht)
      (fun t u ht hj => joined_deleteTeamMembers ht hj) (fun _ hrow hdel => liveAs_of_mem hrow hdel)
      limits_deleteMembers
  exact h.change_team hc (idle_iff.1 hidle)

theorem status_invalidate (hoff : s.redisEnabled = false → ∀ id, s.statusCache id ≠ some .active)
    (h : (s.invalidateTeamStatusCache teamId).statusCache id = some .active) :
    s.statusCache id = some .active ∧ id ≠ teamId := by
  unfold invalidateTeamStatusCache at h
  split at h
  · by_cases hid : id = teamId
    · simp [hid] at h
    · simp only [Function.update_of_ne hid] at h
      exact ⟨h, hid⟩
  · rename_i hredis
    exact absurd h (hoff (by simpa using hredis) id)

theorem invalidate_eq (s : TeamDb) (teamId : ℕ) :
    ∃ cache, s.invalidateTeamStatusCache teamId = { s with statusCache := cache } := by
  unfold invalidateTeamStatusCache
  split
  · exact ⟨_, rfl⟩
  · exact ⟨s.statusCache, rfl⟩

theorem liveAs_cascadeTeam (now : ℤ) (ht : t.teamId ≠ teamId)
    (hl : s.LiveAs t) : (s.cascadeTeam teamId now).LiveAs t := by
  obtain ⟨row, hrow, hdel, hkey, hteam, huser⟩ := hl
  simp [LiveAs, cascadeTeam, deleteTeamRow, updateTeam, deleteMembers, find_map, hrow, hdel,
    hkey, hteam, huser, ht]

theorem inv_deleteTeamCascade (h : s.Inv) {now : ℤ} (hidle : s.idle teamId = true)
    (hs : s.deleteTeamCascade teamId now = .ok s') : s'.Inv := by
  unfold deleteTeamCascade at hs
  split_ifs at hs with hno
  obtain ⟨team, hlive⟩ := Option.ne_none_iff_exists'.1
    (fun hn => hno (.inr (by rw [hn]; rfl)) : s.liveTeam teamId ≠ none)
  cases hs
  have hstatus : ∀ id,
      ((s.cascadeTeam teamId now).invalidateTeamStatusCache teamId).statusCache id =
        some .active → s.statusCache id = some .active ∧ id ≠ teamId :=
    fun id => status_invalidate (s := s.cascadeTeam teamId now) h.off
  obtain ⟨cache, hcache⟩ := invalidate_eq (s.cascadeTeam teamId now) teamId
  rw [hcache] at hstatus ⊢
  refine h.change_team (change_deleteTeamRow hlive rfl rfl rfl rfl hstatus rfl
    (fun t ht hl => liveAs_cascadeTeam now ht hl) (fun t u ht hj => joined_deleteTeamMembers ht hj)
    (fun row hrow hdel => ?_) limits_deleteMembers) (idle_iff.1 hidle)
  obtain ⟨row, hold, rfl⟩ := mem_map.1 hrow
  simp only [Bool.or_eq_false_iff] at hdel
  have hl := liveAs_of_mem hold hdel.1
  exact hl

theorem change_updateTeam (hf : ∀ t, (f t).id = t.id) (hdel : ∀ t, (f t).deleted = t.deleted)
    {off : Prop}
    (hstatus : ∀ t, (f t).status = teamStatusDisabled → off ∨ t.status = teamStatusDisabled)
    (hcache : ∀ id, s'.statusCache id = some .active → s.statusCache id = some
    .active ∧ id ≠ teamId)
    (hs : ∃ cache, s' = { s.updateTeam teamId f hf with statusCache := cache }) :
    Change (fun id => id = teamId ∧ off) (fun _ => False) (fun _ _ => False) s s' := by
  obtain ⟨cache, rfl⟩ := hs
  refine ⟨rfl, rfl, rfl, rfl, fun id hid => ?_, ?_, ?_, fun _ ht => .inl ht, fun _ _ hj => .inl hj,
    fun _ hrow hlive => .inl (liveAs_of_mem hrow hlive), id⟩
  · exact ⟨(hcache id hid).1, fun h => (hcache id hid).2 h.1⟩
  · rintro id ⟨team, hteam, hgone⟩
    refine ⟨if team.id = teamId then f team else team, ?_, ?_⟩
    · exact (find_updateTeam s teamId f hf id).trans (by rw [hteam, Option.map_some])
    · split_ifs
      · rw [hdel, hgone]
      · exact hgone
  · rintro id ⟨team, hteam, hlive, hactive⟩
    have hkey := key_of_find hteam
    have hfind := (find_updateTeam s teamId f hf id).trans (by rw [hteam, Option.map_some])
    by_cases hid : team.id = teamId
    · rw [if_pos hid] at hfind
      by_cases hoff : (f team).status = teamStatusDisabled
      · exact .inr ⟨hkey.symm.trans hid, (hstatus team hoff).resolve_right hactive⟩
      · exact .inl ⟨_, hfind, (hdel team).trans hlive, hoff⟩
    · rw [if_neg hid] at hfind
      exact .inl ⟨_, hfind, hlive, hactive⟩

theorem inv_adminUpdateTeamFields (h : s.Inv) {newStatus : ℕ} {newName : String}
    (hidle : newStatus = teamStatusDisabled → s.idle teamId = true)
    (hs : s.adminUpdateTeamFields teamId newName newStatus = .ok s') : s'.Inv := by
  simp only [adminUpdateTeamFields] at hs
  generalize trimSpace newName = name at hs
  split_ifs at hs
  cases hs
  have hc : Change (fun id => id = teamId ∧ newStatus = teamStatusDisabled) (fun _ => False)
      (fun _ _ => False) s ((s.updateTeam teamId (Team.withFields name newStatus)
        (Team.withFields_id name newStatus)).invalidateTeamStatusCache teamId) := by
    refine change_updateTeam (Team.withFields name newStatus) (Team.withFields_id name newStatus)
      (fun _ => rfl) (fun t ht => ?_) (fun id hid => ?_) (invalidate_eq _ _)
    · simp only [Team.withFields] at ht
      split_ifs at ht
      · exact .inl ht
      · exact .inr ht
    · exact status_invalidate (s := s.updateTeam _ _ _) h.off hid
  exact h.change_team hc fun t ht hoff => idle_iff.1 (hidle hoff.2) t ht hoff.1

theorem inv_createTeamToken (h : s.Inv) {key : String}
    (hs : s.createTeamToken actor teamId name userId key = .ok s') : s'.Inv := by
  unfold createTeamToken at hs
  split at hs
  · cases hs
  rename_i team hverified
  obtain ⟨-, hid, hactor⟩ := liveTeam_of_verified hverified
  simp only [hid] at hs
  generalize (if trimSpace name = "" then "team-key" else trimSpace name) = label at hs
  split at hs
  · cases hs
  split at hs
  · cases hs
  rename_i hmember
  split at hs
  · cases hs
  cases hs
  refine h.grow (.of_tokens (fun t ht => .inl ?_) fun row hrow hlive => ?_)
  · obtain ⟨row, hrow, hlive⟩ := ht
    exact ⟨row, find_insert_of_some hrow _, hlive⟩
  · rcases mem_insert hrow with hold | rfl
    · exact .inl (liveAs_of_mem hold hlive)
    refine .inr ?_
    simp only
    split_ifs with huser
    · exact hactor
    · obtain ⟨m, hm⟩ := Option.ne_none_iff_exists'.1
        (fun hn => hmember ⟨huser, by rw [hn]; rfl⟩ : s.liveMember teamId userId ≠ none)
      exact ⟨m, liveMember_eq_some.1 hm⟩

/-- The token is neither cached nor about to be, and no request with it is between its two
checks. -/
def uncached (s : TeamDb) (tokenId : ℕ) : Bool :=
  ((s.tokens.find tokenId).all fun t => (s.tokenCache t.key).isNone) &&
    s.pending.all (·.id ≠ tokenId) && s.requests.all (·.id ≠ tokenId)

theorem liveAs_put_of_ne {token : Token} (hid : t.id ≠ token.id) (h : s.LiveAs t) :
    ({ s with tokens := s.tokens.put token } : TeamDb).LiveAs t := by
  obtain ⟨row, hrow, hlive⟩ := h
  have hput := find_put_of_ne s.tokens (a := token) hid
  exact ⟨row, hput.trans hrow, hlive⟩

variable {tokenId : ℕ}

theorem inv_deleteTokenRow (h : s.Inv) (hc : s.uncached tokenId = true)
    (hs : s.deleteTeamOwnedTokenRow teamId tokenId = .ok s') : s'.Inv := by
  unfold deleteTeamOwnedTokenRow at hs
  split_ifs at hs
  split at hs
  · cases hs
  rename_i token htoken
  obtain ⟨hfind, -⟩ := Option.filter_eq_some_iff.1 htoken
  have hkey := key_of_find hfind
  cases hs
  simp only [uncached, hfind, Option.all_some, Bool.and_eq_true, Option.isNone_iff_eq_none,
    all_eq_true, decide_eq_true_eq] at hc
  obtain ⟨⟨hcache, hpending⟩, hrequests⟩ := hc
  have hlost : Change (fun _ => False) (· = tokenId) (fun _ _ => False) s
      { s with tokens := s.tokens.put { token with deleted := true } } := by
    refine .of_tokens (fun t ht => ?_) fun row hrow hlive => ?_
    · by_cases hid : t.id = tokenId
      · exact .inr hid
      · exact .inl (liveAs_put_of_ne (fun he => hid (he.trans hkey)) ht)
    · rcases mem_put hrow with hold | ⟨rfl, -⟩
      · exact .inl (liveAs_of_mem hold hlive)
      · cases hlive
  refine h.change hlost (fun key t ht hl hid => ?_) hpending (fun _ _ => not_false)
    fun t ht => ⟨not_false, hrequests t ht⟩
  obtain ⟨row, hrow, -, hrowKey, -⟩ := hl
  rw [hid, hfind] at hrow
  cases hrow
  rw [hrowKey, (h.cached key t ht).1, ht] at hcache
  cases hcache

structure Found (s : TeamDb) (t : Token) : Prop where
  usable : s.LiveAs t ∨ s.Gone t.teamId
  row : s.redisEnabled = false → s.tokens.find t.id = some t

section
variable (h : s.Inv)
include h

theorem inv_getTokenByKey (key : String) : (s.getTokenByKey key).1.Inv ∧
    ∀ t, (s.getTokenByKey key).2 = some t → (s.getTokenByKey key).1.Found t := by
  unfold getTokenByKey
  split
  · rename_i t ht
    split_ifs at ht with hredis
    refine ⟨h, fun t' ht' => ?_⟩
    cases ht'
    exact ⟨(h.cached key t ht).2, fun hoff => by rw [hredis] at hoff; cases hoff⟩
  · split
    · exact ⟨h, nofun⟩
    · rename_i t ht
      have hmem := mem_of_find?_eq_some ht
      have hlive : s.LiveAs t := by
        have hp := find?_some ht
        simp only [Bool.and_eq_true, Bool.not_eq_true'] at hp
        exact liveAs_of_mem hmem hp.2
      have hfound : s.Found t := ⟨.inl hlive, fun _ => find_of_mem hmem⟩
      split_ifs
      · refine ⟨{ h with pending := fun t' ht' => ?_ },
          fun t' ht' => Option.some.inj ht' ▸ ⟨hfound.usable, hfound.row⟩⟩
        rcases mem_append.1 ht' with hold | hnew
        · exact h.pending t' hold
        · exact .inl (mem_singleton.1 hnew ▸ hlive)
      · exact ⟨h, fun t' ht' => Option.some.inj ht' ▸ hfound⟩

theorem inv_retireToken (ht : s.Found t) (status : TokenStatus) : (s.retireToken t status).Inv := by
  unfold retireToken
  split_ifs with hredis
  · exact h
  have hrow := ht.row (by simpa using hredis)
  have hlive : ∀ t', s.LiveAs t' →
      ({ s with tokens := s.tokens.put { t with status := status } } : TeamDb).LiveAs t' := by
    intro t' ht'
    by_cases hid : t'.id = t.id
    · obtain ⟨row, hfind, hdel⟩ := ht'
      rw [hid, hrow] at hfind
      cases hfind
      refine ⟨{ t with status := status }, ?_, hdel⟩
      rw [hid]
      exact find_put_self (a := { t with status := status }) hrow
    · exact liveAs_put_of_ne hid ht'
  refine h.grow (.of_tokens (fun t' ht' => .inl (hlive t' ht')) fun row hmem hdel => .inl ?_)
  rcases mem_put hmem with hold | ⟨rfl, -⟩
  · exact liveAs_of_mem hold hdel
  · exact ⟨t, hrow, hdel, rfl, rfl, rfl⟩

theorem inv_validateUserToken (key : String) (remainQuota now : ℤ) :
    (s.validateUserToken key remainQuota now).1.Inv ∧
      ∀ t, (s.validateUserToken key remainQuota now).2 = .ok t →
        (s.validateUserToken key remainQuota now).1.Found t := by
  obtain ⟨hinv, hfound⟩ := inv_getTokenByKey h key
  unfold validateUserToken
  split
  · exact ⟨h, nofun⟩
  rcases hg : s.getTokenByKey key with ⟨s₁, _ | t⟩ <;> rw [hg] at hinv hfound
  · exact ⟨hinv, nofun⟩
  have ht := hfound t rfl
  simp only
  split_ifs
  · exact ⟨hinv, nofun⟩
  · exact ⟨hinv, nofun⟩
  · exact ⟨hinv, nofun⟩
  · exact ⟨inv_retireToken hinv ht _, nofun⟩
  · exact ⟨inv_retireToken hinv ht _, nofun⟩
  · exact ⟨hinv, fun t' ht' => Except.ok.inj ht' ▸ ht⟩

theorem inv_writeTeamStatusCache (id : ℕ) (val : CachedTeamStatus)
    (hval : val = .active → s.Active id) : (s.writeTeamStatusCache id val).Inv ∧
      ∃ cache, s.writeTeamStatusCache id val = { s with statusCache := cache } := by
  unfold writeTeamStatusCache
  split_ifs with hredis
  · refine ⟨{ h with
      status := fun id' hid' => ?_
      off := fun hoff => by rw [hredis] at hoff; cases hoff }, _, rfl⟩
    by_cases he : id' = id
    · subst he
      exact hval (by simpa using hid')
    · simp only [Function.update_of_ne he] at hid'
      exact h.status id' hid'
  · exact ⟨h, s.statusCache, rfl⟩

theorem inv_getTeamStatusCached (id : ℕ) : (s.getTeamStatusCached id).1.Inv ∧
    (∃ cache, (s.getTeamStatusCached id).1 = { s with statusCache := cache }) ∧
    ((s.getTeamStatusCached id).2 = some teamStatusActive → s.Active id) := by
  unfold getTeamStatusCached
  split
  · exact ⟨h, ⟨s.statusCache, rfl⟩, nofun⟩
  split
  · rename_i hcached
    split_ifs at hcached
    exact ⟨h, ⟨s.statusCache, rfl⟩, fun _ => h.status id hcached⟩
  · exact ⟨h, ⟨s.statusCache, rfl⟩, fun he => absurd (Option.some.inj he) (by decide)⟩
  · exact ⟨h, ⟨s.statusCache, rfl⟩, nofun⟩
  split
  · obtain ⟨hinv, hcache⟩ := inv_writeTeamStatusCache h id .deleted nofun
    exact ⟨hinv, hcache, nofun⟩
  · rename_i team hteam
    obtain ⟨hfind, hlive⟩ := liveTeam_eq_some.1 hteam
    split_ifs with hstatus
    · obtain ⟨hinv, hcache⟩ := inv_writeTeamStatusCache h id .disabled nofun
      exact ⟨hinv, hcache, fun he => absurd (Option.some.inj he) (by decide)⟩
    · have hactive : s.Active id := ⟨team, hfind, hlive, hstatus⟩
      obtain ⟨hinv, hcache⟩ := inv_writeTeamStatusCache h id .active fun _ => hactive
      exact ⟨hinv, hcache, fun _ => hactive⟩

theorem Inv.admitted (ht : s.LiveAs t ∨ s.Gone t.teamId) (hactive : s.Active t.teamId) :
    s.LiveAs t ∧ s.Active t.teamId ∧ s.Joined t.teamId t.userId := by
  have hlive := ht.resolve_right hactive.not_gone
  exact ⟨hlive, hactive, (h.joined hlive).resolve_right hactive.not_gone⟩

theorem inv_setupContextForToken (ht : s.LiveAs t ∨ s.Gone t.teamId) :
    (s.setupContextForToken t).1.Inv ∧
      ∀ t', (s.setupContextForToken t).2 = .ok t' → (s.setupContextForToken t).1.Admitted t' := by
  obtain ⟨hinv, ⟨cache, hcache⟩, hactive⟩ := inv_getTeamStatusCached h t.teamId
  unfold setupContextForToken
  split_ifs with hpos
  · rcases hg : s.getTeamStatusCached t.teamId with ⟨s₁, _ | status⟩ <;>
      rw [hg] at hinv hcache hactive
    · exact ⟨hinv, nofun⟩
    simp only at hinv hcache hactive ⊢
    split_ifs with hstatus
    · refine ⟨hinv, fun t' ht' _ => ?_⟩
      cases ht'
      subst hcache
      exact h.admitted ht (hactive (by rw [hstatus]))
    · exact ⟨hinv, nofun⟩
  · refine ⟨h, fun t' ht' hpos' => ?_⟩
    cases ht'
    exact absurd hpos' hpos

theorem inv_tokenAuth (key : String) (remainQuota now : ℤ) (refusal : Option String) :
    (s.tokenAuth key remainQuota now refusal).1.Inv ∧
      ∀ t, (s.tokenAuth key remainQuota now refusal).2 = .ok t →
        (s.tokenAuth key remainQuota now refusal).1.Admitted t := by
  obtain ⟨hinv, hfound⟩ := inv_validateUserToken h key remainQuota now
  unfold tokenAuth
  rcases hv : s.validateUserToken key remainQuota now with ⟨s₁, _ | t⟩ <;> rw [hv] at hinv hfound
  · exact ⟨hinv, nofun⟩
  cases refusal with
  | some => exact ⟨hinv, nofun⟩
  | none => exact inv_setupContextForToken hinv (hfound t rfl).usable

end

variable {cfg : BillingConfig} {c : RelayCall} {r : Db × Except ApiError BillingSession}

theorem quota_of_opened (hteam : 0 < t.teamId) (hread : c.quotaErr = false)
    (ho : s.openSession cfg t c = some r) (hok : r.2.isOk = true)
    (hm : s.liveMember t.teamId t.userId = some m) :
    ¬(0 < m.quotaLimit ∧ m.quotaLimit ≤ m.usedQuota) := by
  intro hcap
  have hfull : (0 < m.quotaLimit && m.quotaLimit ≤ m.usedQuota) = true := by simpa using hcap
  simp only [openSession, newBillingSession, getTeamMemberQuota, hm, hread, if_pos hteam, tryTeam,
    Bool.false_eq_true, if_false, Option.map_some, Option.any_some, hfull, if_true] at ho
  split at ho <;> obtain rfl := Option.some.inj ho <;> cases hok

/-- An event that takes nothing away that is still in use. -/
def careful (s : TeamDb) : TeamEvent → Bool
  | .removeTeamMember _ teamId userId | .adminRemoveTeamMember teamId userId =>
    s.unused teamId userId
  | .deleteTeam _ teamId => s.statusCache teamId ≠ some .active && s.idle teamId
  | .deleteTeamCascade teamId _ => s.idle teamId
  | .adminUpdateTeamFields teamId _ newStatus => newStatus ≠ teamStatusDisabled || s.idle teamId
  | .deleteTeamOwnedToken _ _ tokenId => s.uncached tokenId
  | .bill _ c => !c.quotaErr
  | _ => true

theorem inv_init (db : Db) : (init redisEnabled db).Inv where
  cached _ _ h := by cases h
  pending _ h := by cases h
  status _ h := by cases h
  holders _ h := by cases h
  limits _ h := by cases h
  requests _ h := by cases h
  off _ _ h := by cases h

theorem inv_apply (h : s.Inv) {r : Except String TeamDb} (hr : ∀ s', r = .ok s' → s'.Inv) :
    (s.apply r).Inv := by
  cases r with
  | error => exact h
  | ok s' => exact hr s' rfl

variable {userExists : Bool}

section
variable (h : s.Inv)
include h

theorem inv_addTeamMember (hs : s.addTeamMember actor teamId userId userExists = .ok s') :
    s'.Inv := by
  unfold addTeamMember at hs
  split at hs
  · cases hs
  split_ifs at hs
  exact inv_insertMember h hs

theorem inv_joinTeamByInvite (hs : s.joinTeamByInvite userId code = .ok s') : s'.Inv := by
  unfold joinTeamByInvite at hs
  split_ifs at hs
  split at hs
  · cases hs
  split_ifs at hs
  exact inv_insertMember h hs

theorem inv_adminAddTeamMember (hs : s.adminAddTeamMember teamId userId role userExists = .ok s') :
    s'.Inv := by
  simp only [adminAddTeamMember] at hs
  generalize (if role = 0 then teamRoleMember else role) = role' at hs
  split_ifs at hs with _ _ _ _ hno
  exact inv_adminAdd h hno hs

theorem inv_removeTeamMember (hc : s.unused teamId userId = true)
    (hs : s.removeTeamMember actor teamId userId = .ok s') : s'.Inv := by
  unfold removeTeamMember at hs
  split at hs
  · cases hs
  rename_i team hverified
  obtain ⟨-, hid, -⟩ := liveTeam_of_verified hverified
  split_ifs at hs
  cases hs
  rw [hid]
  exact inv_removeMember h hc

theorem inv_adminRemoveTeamMember (hc : s.unused teamId userId = true)
    (hs : s.adminRemoveTeamMember teamId userId = .ok s') : s'.Inv := by
  unfold adminRemoveTeamMember at hs
  split_ifs at hs
  split at hs
  · cases hs
  split_ifs at hs
  cases hs
  exact inv_removeMember h hc

theorem inv_setTeamMemberQuota {limit : ℤ}
    (hs : s.setTeamMemberQuota actor teamId userId limit = .ok s') : s'.Inv := by
  unfold setTeamMemberQuota at hs
  generalize (if limit < 0 then 0 else limit) = limit' at hs
  split at hs
  · cases hs
  split_ifs at hs
  cases hs
  refine inv_updateMember h _ _ _ fun _ _ => ?_
  split_ifs <;> omega

theorem inv_deleteTeamOwnedToken {actor : Option ℕ} (hc : s.uncached tokenId = true)
    (hs : s.deleteTeamOwnedToken actor teamId tokenId = .ok s') : s'.Inv := by
  cases actor with
  | none => exact inv_deleteTokenRow h hc hs
  | some =>
    simp only [deleteTeamOwnedToken] at hs
    split at hs
    · cases hs
    exact inv_deleteTokenRow h hc hs

theorem inv_auth (cfg : BillingConfig) (key : String) (remainQuota now : ℤ)
    (refusal : Option String) : (s.step cfg (.auth key remainQuota now refusal)).Inv := by
  obtain ⟨hinv, hadmitted⟩ := inv_tokenAuth h key remainQuota now refusal
  simp only [step]
  rcases ha : s.tokenAuth key remainQuota now refusal with ⟨s₁, _ | t⟩ <;>
    rw [ha] at hinv hadmitted
  · exact hinv
  refine { hinv with requests := fun t' ht' => ?_ }
  rcases mem_append.1 ht' with hold | hnew
  · exact hinv.requests t' hold
  · obtain rfl := mem_singleton.1 hnew
    exact hadmitted t' rfl

theorem inv_bill (cfg : BillingConfig) (i : ℕ) (c : RelayCall) : (s.step cfg (.bill i c)).Inv := by
  simp only [step]
  split
  · exact h
  split
  · exact h
  exact { h with requests := fun t ht => h.requests t (mem_of_mem_eraseIdx ht) }

theorem inv_cacheToken (cfg : BillingConfig) (i : ℕ) : (s.step cfg (.cacheToken i)).Inv := by
  simp only [step]
  split
  · exact h
  rename_i t ht
  refine { h with
    cached := fun key t' hkey => ?_
    pending := fun t' ht' => h.pending t' (mem_of_mem_eraseIdx ht') }
  by_cases hk : key = t.key
  · simp only [hk, Function.update_self, Option.some.injEq] at hkey
    subst hkey
    exact ⟨hk.symm, h.pending t (mem_of_getElem? ht)⟩
  · simp only [Function.update_of_ne hk] at hkey
    exact h.cached key t' hkey

theorem inv_tokenExpires (cfg : BillingConfig) (key : String) :
    (s.step cfg (.tokenExpires key)).Inv := by
  refine { h with cached := fun key' t ht => h.cached key' t ?_ }
  by_cases hk : key' = key
  · simp [step, hk] at ht
  · simpa [step, hk] using ht

theorem inv_statusExpires (cfg : BillingConfig) (teamId : ℕ) :
    (s.step cfg (.statusExpires teamId)).Inv := by
  have hold : ∀ id, (s.step cfg (.statusExpires teamId)).statusCache id = some .active →
      s.statusCache id = some .active := by
    intro id hid
    by_cases hk : id = teamId
    · simp [step, hk] at hid
    · simpa [step, hk] using hid
  exact { h with
    status := fun id hid => h.status id (hold id hid)
    off := fun hoff id hid => h.off hoff id (hold id hid) }

end

variable {e : TeamEvent}

theorem inv_step (h : s.Inv) (cfg : BillingConfig) (hc : s.careful e = true) :
    (s.step cfg e).Inv := by
  cases e with
  | createTeam => exact inv_apply h fun _ hs => inv_createTeam h hs
  | addTeamMember =>
    exact inv_apply h fun _ hs => inv_addTeamMember h hs
  | joinTeamByInvite => exact inv_apply h fun _ hs => inv_joinTeamByInvite h hs
  | adminAddTeamMember =>
    exact inv_apply h fun _ hs => inv_adminAddTeamMember h hs
  | removeTeamMember =>
    exact inv_apply h fun _ hs => inv_removeTeamMember h hc hs
  | adminRemoveTeamMember =>
    exact inv_apply h fun _ hs => inv_adminRemoveTeamMember h hc hs
  | setTeamMemberQuota =>
    exact inv_apply h fun _ hs => inv_setTeamMemberQuota h hs
  | deleteTeam =>
    simp only [careful, Bool.and_eq_true, decide_eq_true_eq] at hc
    exact inv_apply h fun _ hs => inv_deleteTeam h hc.1 hc.2 hs
  | deleteTeamCascade => exact inv_apply h fun _ hs => inv_deleteTeamCascade h hc hs
  | adminUpdateTeamFields =>
    simp only [careful, Bool.or_eq_true, decide_eq_true_eq] at hc
    exact inv_apply h fun _ hs =>
      inv_adminUpdateTeamFields h (fun hoff => hc.resolve_left fun hne => hne hoff) hs
  | createTeamToken =>
    exact inv_apply h fun _ hs => inv_createTeamToken h hs
  | deleteTeamOwnedToken =>
    exact inv_apply h fun _ hs => inv_deleteTeamOwnedToken h hc hs
  | auth key remainQuota now refusal => exact inv_auth h cfg key remainQuota now refusal
  | bill i c => exact inv_bill h cfg i c
  | used teamId userId delta => exact inv_updateMember h teamId userId (· + delta) fun _ hn => hn
  | outside => exact { h with }
  | cacheToken i => exact inv_cacheToken h cfg i
  | tokenExpires key => exact inv_tokenExpires h cfg key
  | statusExpires teamId => exact inv_statusExpires h cfg teamId

theorem entitled_of_opened (h : s.Inv) (ht : t ∈ s.requests) (hteam : 0 < t.teamId)
    (hread : c.quotaErr = false) (ho : s.openSession cfg t c = some r) (hok : r.2.isOk = true) :
    s.entitled t = true := by
  obtain ⟨⟨row, hrow, hlive, -⟩, ⟨team, hfind, hdel, hactive⟩, m, hm, hjoined⟩ :=
    h.requests t ht hteam
  have hmember := liveMember_eq_some.2 ⟨hm, hjoined⟩
  have hcap := quota_of_opened hteam hread ho hok hmember
  have hlimit := h.limits m (mem_of_find hm)
  simp only [entitled, liveTeam_eq_some.2 ⟨hfind, hdel⟩, hrow, hmember, Option.any_some, hactive,
    hlive, ne_eq, not_false_eq_true, decide_true, Bool.not_false, Bool.true_and, Bool.or_eq_true,
    decide_eq_true_eq]
  omega

theorem Inv.sound (h : s.Inv) (cfg : BillingConfig) (hc : s.careful e = true) :
    s.sound cfg e = true := by
  cases e with
  | bill _ c =>
    have hread : c.quotaErr = false := by simpa [careful] using hc
    simp only [TeamDb.sound, Option.all_eq_true]
    intro t ht
    rcases Nat.eq_zero_or_pos t.teamId with hteam | hteam
    · simp [hteam]
    rcases ho : s.openSession cfg t c with _ | r
    · simp
    rcases hok : r.2.isOk with _ | _
    · simp [hok]
    · simp [hok, entitled_of_opened h (mem_of_getElem? ht) hteam hread ho hok]
  | _ => rfl

/-- In every run of careful events a session on a team's subscription is opened only by a live token
of a member with quota left of an active team. -/
theorem sessions_entitled (cfg : BillingConfig) (redisEnabled : Bool) (db : Db)
    (es : List TeamEvent)
    (hes : Along (step cfg) (fun s e => s.careful e = true) (init redisEnabled db) es) :
    Along (step cfg) (fun s e => s.sound cfg e = true) (init redisEnabled db) es := by
  refine along_iff.2 fun pre e post he => ?_
  have hpre : Along (step cfg) (fun s e => s.careful e = true) (init redisEnabled db) pre := by
    rw [he] at hes
    exact (along_append.1 hes).1
  have h : (run (step cfg) (init redisEnabled db) pre).Inv :=
    hpre.run_inv (I := Inv) (fun s e hs hc => inv_step hs cfg hc) (inv_init redisEnabled db)
  exact h.sound cfg (along_iff.1 hes pre e post he)

end TeamDb

def subscribedDb : Db :=
  { sampleDb with
    sub := { sampleSubs with
      subs := (⟨[], nodup_nil⟩ : Table fun r : UserSubscription => r.id).insert
        ⟨2, 8, 1, 1, 60, 20, 0, 2000, .active, 0, 0⟩ } }

def teamWithToken : List TeamEvent :=
  [.createTeam "core" 8 "inv", .joinTeamByInvite 7 "inv", .createTeamToken 8 1 "" 7 "k",
    .outside subscribedDb]

def tokenAuthed : TeamEvent := .auth "k" 0 1000 none

def sessionOpened (requestId : String) : TeamEvent :=
  .bill 0 ⟨noonEnv, sampleReads, false, ⟨noSessionFaults, noSessionFaults⟩,
    { sampleRelay with requestId := requestId }, 10⟩

def servedTeam : List TeamEvent :=
  teamWithToken ++ [tokenAuthed, .cacheToken 0, sessionOpened "a", tokenAuthed, sessionOpened "b",
    .tokenExpires "k", .deleteTeamOwnedToken (some 8) 1 1, .removeTeamMember 8 1 7,
    .deleteTeamCascade 1 1000, tokenAuthed]

def teamUsedAfter (es : List TeamEvent) : Option ℤ :=
  ((run (TeamDb.step plainConfig) (TeamDb.init redisEnabled sampleDb) es).db.sub.subs.find 2).map
    (·.amountUsed)

theorem served_team_entitled : teamUsedAfter true servedTeam = some 40 ∧
    Along (TeamDb.step plainConfig) (fun s e => s.sound plainConfig e = true)
      (TeamDb.init true sampleDb) servedTeam :=
  ⟨by decide,
    TeamDb.sessions_entitled plainConfig true sampleDb servedTeam (by decide)⟩

def removedMember : List TeamEvent :=
  teamWithToken ++ [.removeTeamMember 8 1 7, tokenAuthed, sessionOpened "a"]

def deletedTeam : List TeamEvent :=
  teamWithToken ++ [tokenAuthed, sessionOpened "a", .deleteTeam 8 1, tokenAuthed, sessionOpened "b"]

def deletedToken : List TeamEvent :=
  teamWithToken ++ [tokenAuthed, .cacheToken 0, sessionOpened "a",
    .deleteTeamOwnedToken (some 8) 1 1, tokenAuthed, sessionOpened "b"]

theorem revoked_tokens_open_sessions :
    ¬Along (TeamDb.step plainConfig) (fun s e => s.sound plainConfig e = true)
      (TeamDb.init false sampleDb) removedMember ∧
    ¬Along (TeamDb.step plainConfig) (fun s e => s.sound plainConfig e = true)
      (TeamDb.init true sampleDb) deletedTeam ∧
    ¬Along (TeamDb.step plainConfig) (fun s e => s.sound plainConfig e = true)
      (TeamDb.init true sampleDb) deletedToken := by
  decide

end AggreApi
