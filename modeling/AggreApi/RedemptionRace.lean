import AggreApi.Lib.Procs

/-!
# Redemptions of one code side by side

Any number of calls of `Redeem` for one code, on any number of servers, each cut where others can
come in between. The `SELECT` of the transaction locks nothing; the user's row is locked from its
`UPDATE` to the commit, and the code's row from its `Save`.
-/

namespace AggreApi

inductive RedemptionStatus
  | enabled
  | disabled
  | used
  deriving DecidableEq, Repr

structure Redemption where
  key : String
  status : RedemptionStatus
  quota : ℤ
  redeemedTime : ℤ
  usedUserId : ℕ
  expiredTime : ℤ
  deriving DecidableEq, Repr

namespace Redemption

/-- The checks of `Redeem` on the row it read. -/
def redeemable (redemption : Redemption) (now : ℤ) : Bool :=
  redemption.status = .enabled ∧ ¬(redemption.expiredTime ≠ 0 ∧ redemption.expiredTime < now)

def usedBy (redemption : Redemption) (userId : ℕ) (now : ℤ) : Redemption :=
  { redemption with redeemedTime := now, status := .used, usedUserId := userId }

end Redemption

/-- Before the `SELECT`; with the row read; the user credited; the row saved; over. -/
inductive RedeemAt
  | starting
  | crediting (redemption : Redemption)
  | saving (redemption : Redemption)
  | committing (redemption : Redemption)
  | redeemed (quota : ℤ)
  | failed (err : String)
  deriving DecidableEq

namespace RedeemAt

def succeeded : RedeemAt → Bool
  | redeemed _ => true
  | _ => false

def holdsUser : RedeemAt → Bool
  | saving _ | committing _ => true
  | _ => false

def holdsCode : RedeemAt → Bool
  | committing _ => true
  | _ => false

end RedeemAt

structure RedeemProc where
  key : String
  userId : ℕ
  pos : RedeemAt
  deriving DecidableEq

/-- The call at `proc` takes its next step, at the time `now`; its statement may fail. -/
structure RedeemEvent where
  proc : ℕ
  now : ℤ
  fail : Bool

structure RedemptionRace where
  redemption : Redemption
  quota : ℕ → ℤ
  procs : List RedeemProc

namespace RedemptionRace

def init (redemption : Redemption) (quota : ℕ → ℤ) (calls : List (String × ℕ)) : RedemptionRace :=
  ⟨redemption, quota, calls.map fun c => ⟨c.1, c.2, .starting⟩⟩

variable (s : RedemptionRace)

def userLocked (userId : ℕ) : Bool := s.procs.any fun p => p.userId = userId ∧ p.pos.holdsUser

def codeLocked : Bool := s.procs.any fun p => p.pos.holdsCode

def move (i : ℕ) (p : RedeemProc) (pos : RedeemAt) : RedemptionRace :=
  { s with procs := s.procs.set i { p with pos := pos } }

def commit (userId : ℕ) (redemption : Redemption) : RedemptionRace :=
  { s with
    redemption := redemption
    quota := Function.update s.quota userId (s.quota userId + redemption.quota) }

def errRedeemFailed : String := "redeem.failed"

variable (e : RedeemEvent)

def advance (p : RedeemProc) : RedemptionRace :=
  match p.pos with
  | .starting =>
    if p.key = "" then s.move e.proc p (.failed "未提供兑换码")
    else if p.userId = 0 then s.move e.proc p (.failed "无效的 user id")
    else if e.fail ∨ p.key ≠ s.redemption.key ∨ !s.redemption.redeemable e.now then
      s.move e.proc p (.failed errRedeemFailed)
    else s.move e.proc p (.crediting s.redemption)
  | .crediting redemption =>
    if s.userLocked p.userId then s
    else if e.fail then s.move e.proc p (.failed errRedeemFailed)
    else s.move e.proc p (.saving redemption)
  | .saving redemption =>
    if s.codeLocked then s
    else if e.fail then s.move e.proc p (.failed errRedeemFailed)
    else s.move e.proc p (.committing (redemption.usedBy p.userId e.now))
  | .committing redemption =>
    if e.fail then s.move e.proc p (.failed errRedeemFailed)
    else (s.move e.proc p (.redeemed redemption.quota)).commit p.userId redemption
  | .redeemed _ => s
  | .failed _ => s

def step : RedemptionRace :=
  match s.procs[e.proc]? with
  | none => s
  | some p => s.advance e p

def successes : ℕ := s.procs.countP fun p => p.pos.succeeded

def committing : Bool := !e.fail && (s.procs[e.proc]?).any fun p => p.pos.holdsCode

def enabledAtCommit : Bool := s.committing e → s.redemption.status = .enabled

end RedemptionRace

end AggreApi
