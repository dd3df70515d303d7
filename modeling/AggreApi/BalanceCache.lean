import AggreApi.UserRace
import AggreApi.Lib.Run

/-!
# The cached balance

A user's balance in the database and in the user's cache entry, with Redis and without batch
updates. The calls that write the balance come one after the other, cut into steps; nothing is
written to an entry whose `ttl` is not positive.
-/

namespace AggreApi

/-- The row, and the `Quota` of the cache entry while there is one. -/
structure BalanceStore where
  row : UserRow
  cached : Option ℤ
  deriving DecidableEq, Repr

namespace BalanceStore

variable (s : BalanceStore)

/-- `cacheIncrUserQuota`, by `RedisHIncrBy`. -/
def cacheIncrUserQuota (delta ttl : ℤ) : BalanceStore :=
  if 0 < ttl then { s with cached := s.cached.map (· + delta) } else s

/-- `updateUserQuotaCache`, by `RedisHSetField`. -/
def updateUserQuotaCache (quota ttl : ℤ) : BalanceStore :=
  if 0 < ttl then { s with cached := s.cached.map fun _ => quota } else s

def invalidateUserCache : BalanceStore := { s with cached := none }

def addQuota (s : BalanceStore) (delta : ℤ) : BalanceStore :=
  { s with row := s.row.addQuota delta }

/-- `GetUserQuota` from the cache, and from the database where there is no entry. -/
def getUserQuota : ℤ := s.cached.getD s.row.quota

/-- Whether `TransferAffQuotaToQuota` goes through. -/
def transfers (cfg : InviteSettings) (s : BalanceStore) (quota : ℤ) : Bool :=
  ¬(quota < cfg.quotaPerUnit ∨ s.row.affQuota < quota)

def grants (cfg : InviteSettings) (s : BalanceStore) : Bool :=
  s.row.inviterId ≠ 0 ∧ s.row.inviterId ≠ cfg.userId ∧ ¬s.row.affRewardSettled

end BalanceStore

/-- What happens to the row and its cache entry. -/
inductive BalanceStep
  | adjust (delta ttl : ℤ)
  | credit (delta : ℤ)
  | transfer (quota : ℤ)
  | deduct (quotaCost : ℤ)
  | grant (ttl : ℤ)
  | refresh (ttl : ℤ)
  | expire
  | fill
  deriving DecidableEq

namespace BalanceStore

def step (cfg : InviteSettings) (s : BalanceStore) : BalanceStep → BalanceStore
  | .adjust delta ttl => (s.addQuota delta).cacheIncrUserQuota delta ttl
  | .credit delta => s.addQuota delta
  | .transfer quota =>
    if s.transfers cfg quota then { s with row := s.row.transferred quota } else s
  | .deduct quotaCost => (s.addQuota (-quotaCost)).invalidateUserCache
  | .grant ttl =>
    if s.grants cfg then
      let settled := { s with row := { s.row with affRewardSettled := true } }
      if 0 < cfg.quotaForInvitee then
        (settled.addQuota cfg.quotaForInvitee).cacheIncrUserQuota cfg.quotaForInvitee ttl
      else settled
    else s
  | .refresh ttl => s.updateUserQuotaCache s.row.quota ttl
  | .expire => s.invalidateUserCache
  | .fill => { s with cached := some s.getUserQuota }

end BalanceStore

/-- The calls, with what Redis answers in each of their cache steps. -/
inductive BalanceCall
  | increaseUserQuota (quota ttl : ℤ)
  | decreaseUserQuota (quota ttl : ℤ)
  | redeem (quota : ℤ)
  | recharge (quota ttl : ℤ)
  | transferAffQuotaToQuota (quota : ℤ)
  | walletPay (quotaCost : ℤ) (activated : Bool) (ttl ttl' : ℤ)
  | getUserCache
  | expire

namespace BalanceCall

def steps (s : BalanceStore) : BalanceCall → List BalanceStep
  | increaseUserQuota quota ttl => if quota < 0 then [] else [.adjust quota ttl]
  | decreaseUserQuota quota ttl => if quota < 0 then [] else [.adjust (-quota) ttl]
  | redeem quota => [.credit quota]
  | recharge quota ttl => [.credit quota, .grant ttl]
  | transferAffQuotaToQuota quota => [.transfer quota]
  | walletPay quotaCost activated ttl ttl' =>
    if quotaCost ≤ 0 ∨ s.row.quota < quotaCost then []
    else if activated then [.deduct quotaCost, .grant ttl, .refresh ttl']
    else [.deduct quotaCost, .adjust quotaCost ttl]
  | getUserCache => [.fill]
  | expire => [.expire]

end BalanceCall

namespace BalanceStore

def call (cfg : InviteSettings) (s : BalanceStore) (c : BalanceCall) : BalanceStore :=
  run (step cfg) s (c.steps s)

def trace (cfg : InviteSettings) (s : BalanceStore) : List BalanceCall → List BalanceStep
  | [] => []
  | c :: calls => c.steps s ++ trace cfg (s.call cfg c) calls

def filled (row : UserRow) : BalanceStore := ⟨row, some row.quota⟩

/-- The step leaves the balance alone, finds no entry, drops it or brings it up to date. -/
def stepKept (cfg : InviteSettings) (s : BalanceStore) : BalanceStep → Bool
  | .adjust delta ttl => delta = 0 ∨ s.cached = none ∨ 0 < ttl
  | .credit delta => delta = 0 ∨ s.cached = none
  | .transfer quota => !s.transfers cfg quota ∨ quota = 0 ∨ s.cached = none
  | .grant ttl =>
    !s.grants cfg ∨ cfg.quotaForInvitee ≤ 0 ∨ s.cached = none ∨ 0 < ttl
  | .deduct _ | .refresh _ | .expire | .fill => true

end BalanceStore

end AggreApi
