import AggreApi.Lib.Procs

/-!
# Operations on one user's row side by side

The operations of `model/user.go` that write the balances of a user, any number of them on any
number of servers, each cut where others can come in between: `IncreaseUserQuota` and
`DecreaseUserQuota` are one `UPDATE`, `inviteUser` and `TransferAffQuotaToQuota` read the row and
save all of it later, and `MaybeGrantInviteRewardOnFirstTopUp` claims the reward by a conditional
`UPDATE`. A `SELECT` locks nothing; what a transaction has written is locked until it commits, and
other writes wait for that. Beside the row stand the rewards that have been paid.
-/

namespace AggreApi

/-- The columns of `User` that these operations read or write. -/
structure UserRow where
  quota : ℤ
  affCount : ℤ
  affQuota : ℤ
  affHistoryQuota : ℤ
  inviterId : ℕ
  affRewardSettled : Bool
  deriving DecidableEq, Repr

variable (user : UserRow)

namespace UserRow

def balance : ℤ := user.quota + user.affQuota

def invited (reward : ℤ) : UserRow :=
  { user with
    affCount := user.affCount + 1
    affQuota := user.affQuota + reward
    affHistoryQuota := user.affHistoryQuota + reward }

def transferred (quota : ℤ) : UserRow :=
  { user with affQuota := user.affQuota - quota, quota := user.quota + quota }

def addQuota (quota : ℤ) : UserRow := { user with quota := user.quota + quota }

end UserRow

structure AffTier where
  count : ℤ
  bonus : ℤ
  deriving DecidableEq, Repr

structure InviteSettings where
  userId : ℕ
  quotaPerUnit : ℚ
  quotaForInviter : ℤ
  quotaForInvitee : ℤ
  affTierEnabled : Bool
  affTiers : List AffTier

variable (cfg : InviteSettings) (s : UserRace) (i : ℕ)

namespace InviteSettings

/-- `GetAffTiers`: the valid tiers, by their count. -/
def getAffTiers : List AffTier :=
  (cfg.affTiers.filter fun t => 0 < t.count ∧ 0 < t.bonus).insertionSort
    fun t u => t.count ≤ u.count

def tiers : List AffTier := if cfg.affTierEnabled then cfg.getAffTiers else []

end InviteSettings

inductive BalanceOp
  | increaseUserQuota (quota : ℤ)
  | decreaseUserQuota (quota : ℤ)
  | inviteUser
  | transferAffQuotaToQuota (quota : ℤ)
  | maybeGrantInviteReward
  deriving DecidableEq

def BalanceOp.amount : BalanceOp → ℤ
  | increaseUserQuota quota => if quota < 0 then 0 else quota
  | decreaseUserQuota quota => if quota < 0 then 0 else -quota
  | _ => 0

/-- Where an operation is, with the row it read and the tiers still to go through. -/
inductive BalanceAt
  | starting (op : BalanceOp)
  | inviting (user : UserRow) (reward : ℤ) (tiers : List AffTier)
  | recording (user : UserRow) (reward : ℤ) (tier : AffTier) (tiers : List AffTier)
  | transferring (user : UserRow) (quota : ℤ)
  | committing (user : UserRow) (quota : ℤ)
  | settling (inviterId : ℕ)
  | settled (inviterId : ℕ)
  | crediting (inviterId : ℕ)
  | callingInviter (inviterId : ℕ)
  | ended
  deriving DecidableEq

namespace BalanceAt

def inTx : BalanceAt → Bool
  | committing _ _ | settled _ => true
  | _ => false

def unpaid : BalanceAt → ℤ
  | starting op => op.amount
  | _ => 0

def unsaved : BalanceAt → ℤ
  | starting .inviteUser | inviting _ _ _ | recording _ _ _ _ => 1
  | _ => 0

end BalanceAt

/-- The row, the tiers granted, what `inviteUser` has added, what was credited for the own
invitation, and the inviters called for. -/
structure UserRace where
  row : UserRow
  tierGrants : List ℤ
  rewards : List ℤ
  credits : List ℤ
  inviterCalls : List ℕ
  procs : List BalanceAt

namespace UserRace

def init (row : UserRow) (tierGrants : List ℤ) (ops : List BalanceOp) : UserRace :=
  ⟨row, tierGrants, [], [], [], ops.map .starting⟩

def locked : Bool := s.procs.any BalanceAt.inTx

def move (pos : BalanceAt) : UserRace := { s with procs := s.procs.set i pos }

def write (row : UserRow) : UserRace := { s with row := row }

def begin : BalanceOp → UserRace
  | .increaseUserQuota quota =>
    if quota < 0 then s.move i .ended
    else if s.locked then s
    else (s.move i .ended).write (s.row.addQuota quota)
  | .decreaseUserQuota quota =>
    if quota < 0 then s.move i .ended
    else if s.locked then s
    else (s.move i .ended).write (s.row.addQuota (-quota))
  | .inviteUser => s.move i (.inviting s.row cfg.quotaForInviter cfg.tiers)
  | .transferAffQuotaToQuota quota =>
    if quota < cfg.quotaPerUnit ∨ s.row.affQuota < quota then s.move i .ended
    else s.move i (.transferring s.row quota)
  | .maybeGrantInviteReward =>
    if s.row.inviterId = 0 ∨ s.row.inviterId = cfg.userId then s.move i .ended
    else s.move i (.settling s.row.inviterId)

def advance : BalanceAt → UserRace
  | .starting op => s.begin cfg i op
  | .inviting user reward [] =>
    if s.locked then s
    else { (s.move i .ended).write (user.invited reward) with rewards := reward :: s.rewards }
  | .inviting user reward (tier :: tiers) =>
    if user.affCount + 1 ≠ tier.count ∨ tier.count ∈ s.tierGrants then
      s.move i (.inviting user reward tiers)
    else s.move i (.recording user reward tier tiers)
  | .recording user reward tier tiers =>
    if tier.count ∈ s.tierGrants then s.move i (.inviting user reward tiers)
    else
      { s.move i (.inviting user (reward + tier.bonus) tiers) with
        tierGrants := tier.count :: s.tierGrants }
  | .transferring user quota => if s.locked then s else s.move i (.committing user quota)
  | .committing user quota => (s.move i .ended).write (user.transferred quota)
  | .settling inviterId =>
    if s.locked then s
    else if s.row.affRewardSettled then s.move i .ended
    else s.move i (.settled inviterId)
  | .settled inviterId =>
    (s.move i (.crediting inviterId)).write { s.row with affRewardSettled := true }
  | .crediting inviterId =>
    if cfg.quotaForInvitee ≤ 0 then s.move i (.callingInviter inviterId)
    else if s.locked then s
    else
      { (s.move i (.callingInviter inviterId)).write (s.row.addQuota cfg.quotaForInvitee) with
        credits := cfg.quotaForInvitee :: s.credits }
  | .callingInviter inviterId =>
    if cfg.quotaForInviter ≤ 0 then s.move i .ended
    else { s.move i .ended with inviterCalls := inviterId :: s.inviterCalls }
  | .ended => s

def step : UserRace :=
  match s.procs[i]? with
  | none => s
  | some pos => s.advance cfg i pos

/-- The row as it was read by the operation whose write of the whole row takes effect with this
step. -/
def overwriting : Option UserRow :=
  match s.procs[i]? with
  | some (.inviting user _ []) => if s.locked then none else some user
  | some (.committing user _) => some user
  | _ => none

/-- A write of the whole row finds the balances and the invitation count that were read. -/
def balancesKept : Bool :=
  (s.overwriting i).all fun user =>
    user.balance = s.row.balance ∧ user.affCount = s.row.affCount

/-- A write of the whole row does not take back that the reward is settled. -/
def settlementKept : Bool :=
  (s.overwriting i).all fun user => s.row.affRewardSettled → user.affRewardSettled

end UserRace

end AggreApi
