import AggreApi.UserRace
import AggreApi.Lib.Run

/-!
# A whole-row `Save` loses what was written since the row was read

Every single `UPDATE` keeps the books; a write of the whole row sets the balances back to those that
were read. In the same way it can take back `aff_reward_settled`, and the reward is then granted
again.
-/

namespace AggreApi

open BalanceAt UserRace UserRow

variable {s' s : UserRace} {user : UserRow} {inviterId : ℕ}

namespace UserRace

section Step

variable {cfg : InviteSettings} {s : UserRace} {i : ℕ} {pos pos' : BalanceAt}

/-- The balances, with what has been paid as a reward taken out and what is still to be written
added. -/
def funds (s : UserRace) : ℤ :=
  s.row.balance + (s.procs.map unpaid).sum - s.rewards.sum - s.credits.sum

/-- The invitation count, with the `inviteUser` calls that have not yet saved the row. -/
def invitations (s : UserRace) : ℤ := s.row.affCount + (s.procs.map unsaved).sum

theorem books_move (pos' : BalanceAt) (s' : UserRace) (hpos : s.procs[i]? = some pos)
    (hprocs : s'.procs = (s.move i pos').procs) :
    s'.funds = s.funds + (s'.row.balance - s.row.balance) + (pos'.unpaid - pos.unpaid)
        - (s'.rewards.sum - s.rewards.sum) - (s'.credits.sum - s.credits.sum) ∧
      s'.invitations
        = s.invitations + (s'.row.affCount - s.row.affCount) + (pos'.unsaved - pos.unsaved) := by
  unfold funds invitations
  rw [hprocs, move, sum_map_set pos' unpaid hpos,
    sum_map_set pos' unsaved hpos]
  constructor <;> ring

/-- By how much a step moves the books. -/
def drift (f : UserRow → ℤ) (s : UserRace) (i : ℕ) : ℤ :=
  (s.overwriting i).elim 0 fun user => f user - f s.row

theorem drift_of_none (f : UserRow → ℤ) (h : s.overwriting i = none) : s.drift f i = 0 := by
  rw [drift, h, Option.elim_none]

def Books (s : UserRace) (i : ℕ) (s' : UserRace) : Prop :=
  s'.funds = s.funds + s.drift balance i ∧
    s'.invitations = s.invitations + s.drift affCount i

theorem books_of_move (hpos : s.procs[i]? = some pos)
    (hprocs : s'.procs = (s.move i pos').procs) (hno : s.overwriting i = none)
    (hfunds : s'.row.balance - s.row.balance + (pos'.unpaid - pos.unpaid)
      = s'.rewards.sum - s.rewards.sum + (s'.credits.sum - s.credits.sum))
    (hcount : s'.row.affCount - s.row.affCount + (pos'.unsaved - pos.unsaved) = 0) :
    s.Books i s' := by
  obtain ⟨h₁, h₂⟩ := books_move _ _ hpos hprocs
  rw [Books, drift_of_none _ hno, drift_of_none _ hno]
  constructor <;> omega

theorem books_stay (hno : s.overwriting i = none) : s.Books i s := by
  rw [Books, drift_of_none _ hno, drift_of_none _ hno]
  constructor <;> omega

theorem books_begin {op : BalanceOp} (hpos : s.procs[i]? = some (starting op)) :
    s.Books i (s.begin cfg i op) := by
  have hno : s.overwriting i = none := by rw [overwriting, hpos]
  cases op <;> unfold begin <;> dsimp only <;> try split_ifs
  all_goals
    first
      | exact books_stay hno
      | refine books_of_move hpos rfl hno ?_ ?_ <;>
          simp [move, write, addQuota, balance, unpaid,
            unsaved, BalanceOp.amount, *]

theorem books_save {reward : ℤ} (hpos : s.procs[i]? = some (inviting user reward [])) :
    s.Books i (s.advance cfg i (.inviting user reward [])) := by
  unfold advance
  dsimp only
  split_ifs with hlock
  · exact books_stay (by rw [overwriting, hpos]; exact if_pos hlock)
  · have hover : s.overwriting i = some user := by rw [overwriting, hpos]; exact if_neg hlock
    have hbooks := books_move .ended
      { (s.move i .ended).write (user.invited reward) with rewards := reward :: s.rewards }
      hpos rfl
    simp only [Books, drift, hover, Option.elim_some]
    simp only [move, write, invited, balance, unpaid, unsaved,
      List.sum_cons] at hbooks ⊢
    constructor <;> omega

theorem books_commit {quota : ℤ} (hpos : s.procs[i]? = some (committing user quota)) :
    s.Books i (s.advance cfg i (.committing user quota)) := by
  have hover : s.overwriting i = some user := by rw [overwriting, hpos]
  have hbooks := books_move .ended ((s.move i .ended).write (user.transferred quota)) hpos rfl
  simp only [Books, drift, hover, Option.elim_some]
  simp only [advance, move, write, transferred, balance, unpaid,
    unsaved] at hbooks ⊢
  constructor <;> omega

theorem books_advance (hpos : s.procs[i]? = some pos) : s.Books i (s.advance cfg i pos) := by
  cases pos with
  | starting => exact books_begin hpos
  | inviting _ _ tiers =>
    cases tiers with
    | nil => exact books_save hpos
    | cons =>
      have hno : s.overwriting i = none := by rw [overwriting, hpos]
      unfold advance
      dsimp only
      split_ifs <;> exact books_of_move hpos rfl hno (by simp [move, unpaid])
        (by simp [move, unsaved])
  | committing => exact books_commit hpos
  | _ =>
    have hno : s.overwriting i = none := by rw [overwriting, hpos]
    unfold advance
    dsimp only
    try split_ifs
    all_goals
      first
        | exact books_stay hno
        | exact books_of_move hpos rfl hno
            (by simp [move, write, addQuota, balance, unpaid])
            (by simp [move, write, addQuota, unsaved])

theorem books_step (cfg : InviteSettings) (s : UserRace) (i : ℕ) : s.Books i (s.step cfg i) := by
  unfold step
  split
  · rename_i hpos
    exact books_stay (by rw [overwriting, hpos])
  · rename_i pos hpos
    exact books_advance hpos

end Step

/-- The balances and the count are the initial ones with what has been done, that aside which is
still to be written. -/
def Balanced (row : UserRow) (ops : List BalanceOp) (s : UserRace) : Prop :=
  s.row.balance + (s.procs.map unpaid).sum
      = row.balance + (ops.map BalanceOp.amount).sum + s.rewards.sum + s.credits.sum ∧
    s.row.affCount + (s.procs.map unsaved).sum = row.affCount + ops.count .inviteUser

theorem Balanced.init (row : UserRow) (tierGrants : List ℤ) (ops : List BalanceOp) :
    (init row tierGrants ops).Balanced row ops := by
  constructor
  · simp [UserRace.init, Function.comp_def, BalanceAt.unpaid]
  · change row.affCount + _ = _
    rw [UserRace.init]
    induction ops with
    | nil => rfl
    | cons op _ ih =>
      rw [List.map_cons, List.map_cons, List.sum_cons, List.count_cons]
      cases op <;> simp [unsaved] at ih ⊢ <;> omega

theorem balancesKept_iff {i : ℕ} :
    s.balancesKept i = true ↔ s.drift balance i = 0 ∧ s.drift affCount i = 0 := by
  unfold balancesKept drift
  cases s.overwriting i with
  | none => simp
  | some => simp [sub_eq_zero]

theorem balanced_step_iff (cfg : InviteSettings) {row : UserRow} {ops : List BalanceOp} (i : ℕ)
    (h : s.Balanced row ops) :
    (s.step cfg i).Balanced row ops ↔ s.balancesKept i = true := by
  obtain ⟨hfunds, hcount⟩ := books_step cfg s i
  obtain ⟨h₁, h₂⟩ := h
  rw [balancesKept_iff]
  unfold Balanced
  unfold funds at hfunds
  unfold invitations at hcount
  constructor
  · rintro ⟨h₁', h₂'⟩
    constructor <;> omega
  · rintro ⟨h₁', h₂'⟩
    constructor <;> omega

/-- No update is lost in a run exactly when every write of the whole row finds the balances and the
count that were read. -/
theorem no_update_lost_iff (cfg : InviteSettings) (row : UserRow) (tierGrants : List ℤ)
    (ops : List BalanceOp) (es : List ℕ) :
    (∀ pre post, es = pre ++ post →
        (run (step cfg) (init row tierGrants ops) pre).Balanced row ops) ↔
      Along (step cfg) (fun s i => s.balancesKept i = true) (init row tierGrants ops) es :=
  (along_iff_reached (fun _ i h => balanced_step_iff cfg i h)
    (Balanced.init row tierGrants ops)).symm

def invitee : UserRow := ⟨1000000, 1, 500000, 500000, 1, false⟩

def inviteSettings : InviteSettings := ⟨2, 500000, 500000, 250000, false, []⟩

def transferAndCharge : List BalanceOp :=
  [.transferAffQuotaToQuota 500000, .decreaseUserQuota 300000]

/-- The request is charged between the read and the `Save` of the transfer: the charge is gone. -/
theorem charge_lost :
    (run (step inviteSettings) (init invitee [] transferAndCharge) [0, 1, 0, 0]).procs
        = [.ended, .ended] ∧
      (run (step inviteSettings) (init invitee [] transferAndCharge) [0, 1, 0, 0]).row.balance
        = 1500000 ∧
      invitee.balance + (transferAndCharge.map BalanceOp.amount).sum = 1200000 ∧
      ¬(run (step inviteSettings) (init invitee [] transferAndCharge) [0, 1, 0, 0]).Balanced
        invitee transferAndCharge := by
  refine ⟨by decide, by decide, by decide, ?_⟩
  rintro ⟨hfunds, -⟩
  revert hfunds
  decide

section Reward

variable {cfg : InviteSettings} {s : UserRace} {i : ℕ} {pos pos' : BalanceAt}

def claiming : BalanceAt → Bool
  | .settled _ => true
  | _ => false

def crediting : BalanceAt → Bool
  | .crediting _ => true
  | _ => false

def calling : BalanceAt → Bool
  | .callingInviter _ => true
  | _ => false

/-- At most one reward is given, owed or about to be claimed, and none given or owed while the row
says it is not settled. -/
structure OnceInv (s : UserRace) : Prop where
  credited : s.credits.length + s.procs.countP claiming + s.procs.countP crediting ≤ 1
  called : s.inviterCalls.length + s.procs.countP claiming + s.procs.countP crediting
    + s.procs.countP calling ≤ 1
  fresh : s.row.affRewardSettled = false → s.credits = [] ∧ s.inviterCalls = [] ∧
    s.procs.countP crediting = 0 ∧ s.procs.countP calling = 0

theorem OnceInv.init (row : UserRow) (tierGrants : List ℤ) (ops : List BalanceOp) :
    (init row tierGrants ops).OnceInv := by
  have hnone : ∀ p : BalanceAt → Bool, (∀ op, p (.starting op) = false) →
      (UserRace.init row tierGrants ops).procs.countP p = 0 := by
    intro p hp
    simp [UserRace.init, List.countP_eq_zero, hp]
  have h₁ := hnone claiming fun _ => rfl
  have h₂ := hnone crediting fun _ => rfl
  have h₃ := hnone calling fun _ => rfl
  exact ⟨by rw [h₁, h₂]; exact Nat.zero_le 1, by rw [h₁, h₂, h₃]; exact Nat.zero_le 1,
    fun _ => ⟨rfl, rfl, h₂, h₃⟩⟩

theorem stages_move (pos' : BalanceAt) (hpos : s.procs[i]? = some pos)
    (hprocs : s'.procs = (s.move i pos').procs) (p : BalanceAt → Bool) :
    s'.procs.countP p + (if p pos then 1 else 0) = s.procs.countP p + if p pos' then 1 else 0 := by
  rw [hprocs]
  exact countP_set_add pos' p hpos

/-- A position at no stage of the reward. -/
def Idle (pos : BalanceAt) : Prop :=
  claiming pos = false ∧ crediting pos = false ∧ calling pos = false

theorem OnceInv.idle (pos' : BalanceAt) (h : s.OnceInv)
    (hpos : s.procs[i]? = some pos) (hprocs : s'.procs = (s.move i pos').procs)
    (hidle : Idle pos) (hidle' : Idle pos')
    (hgiven : (s'.credits, s'.inviterCalls) = (s.credits, s.inviterCalls))
    (hrow : s'.row.affRewardSettled = false → s.row.affRewardSettled = false) :
    s'.OnceInv := by
  obtain ⟨hcredits, hcalls⟩ := Prod.mk.inj hgiven
  have h₁ := stages_move _ hpos hprocs claiming
  have h₂ := stages_move _ hpos hprocs crediting
  have h₃ := stages_move _ hpos hprocs calling
  rw [hidle.1, hidle'.1] at h₁
  rw [hidle.2.1, hidle'.2.1] at h₂
  rw [hidle.2.2, hidle'.2.2] at h₃
  simp only [Bool.false_eq_true, if_false, add_zero] at h₁ h₂ h₃
  refine ⟨?_, ?_, fun hs => ?_⟩
  · rw [hcredits, h₁, h₂]
    exact h.credited
  · rw [hcalls, h₁, h₂, h₃]
    exact h.called
  · rw [hcredits, hcalls, h₂, h₃]
    exact h.fresh (hrow hs)

theorem claiming_of_not_locked (h : s.locked = false) : s.procs.countP claiming = 0 := by
  rw [List.countP_eq_zero]
  intro pos hpos hclaim
  have hin : pos.inTx = true := by cases pos <;> first | rfl | cases hclaim
  have : s.locked = true := List.any_eq_true.2 ⟨pos, hpos, hin⟩
  rw [h] at this
  cases this

theorem OnceInv.claim (h : s.OnceInv)
    (hpos : s.procs[i]? = some (settling inviterId)) (hlock : s.locked = false)
    (hrow : s.row.affRewardSettled = false) : (s.move i (.settled inviterId)).OnceInv := by
  have h₁ := stages_move (.settled inviterId) hpos rfl claiming
  have h₂ := stages_move (.settled inviterId) hpos rfl crediting
  have h₃ := stages_move (.settled inviterId) hpos rfl calling
  simp only [claiming, crediting, calling, Bool.false_eq_true, if_false, if_true,
    add_zero] at h₁ h₂ h₃
  obtain ⟨hcredits, hcalls, hc₂, hc₃⟩ := h.fresh hrow
  have hc₁ := claiming_of_not_locked hlock
  refine ⟨?_, ?_, fun _ => ⟨hcredits, hcalls, by omega, by omega⟩⟩
  · change s.credits.length + _ + _ ≤ 1
    rw [hcredits, List.length_nil]
    omega
  · change s.inviterCalls.length + _ + _ + _ ≤ 1
    rw [hcalls, List.length_nil]
    omega

theorem OnceInv.settle (h : s.OnceInv) (hpos : s.procs[i]? = some (settled inviterId)) :
    ((s.move i (.crediting inviterId)).write
      { s.row with affRewardSettled := true }).OnceInv := by
  have h₁ := stages_move (.crediting inviterId) hpos rfl claiming
  have h₂ := stages_move (.crediting inviterId) hpos rfl crediting
  have h₃ := stages_move (.crediting inviterId) hpos rfl calling
  simp only [claiming, crediting, calling, Bool.false_eq_true, if_false, if_true,
    add_zero] at h₁ h₂ h₃
  obtain ⟨hcredited, hcalled, -⟩ := h
  refine ⟨?_, ?_, nofun⟩ <;> simp only [move, write] at h₁ h₂ h₃ ⊢ <;> omega

theorem OnceInv.credit (h : s.OnceInv) (hpos : s.procs[i]? = some (BalanceAt.crediting inviterId))
    (hprocs : s'.procs = (s.move i (.callingInviter inviterId)).procs)
    (hgiven : s'.credits.length ≤ s.credits.length + 1 ∧ s'.inviterCalls = s.inviterCalls)
    (hrow : s'.row.affRewardSettled = s.row.affRewardSettled) : s'.OnceInv := by
  have h₁ := stages_move _ hpos hprocs claiming
  have h₂ := stages_move _ hpos hprocs crediting
  have h₃ := stages_move _ hpos hprocs calling
  simp only [claiming, crediting, calling, Bool.false_eq_true, if_false, if_true,
    add_zero] at h₁ h₂ h₃
  have hcredited := h.credited
  have hcalled := h.called
  refine ⟨by omega, by rw [hgiven.2]; omega, fun hs => ?_⟩
  have hc₂ := (h.fresh (hrow.symm.trans hs)).2.2.1
  omega

theorem OnceInv.call (h : s.OnceInv)
    (hpos : s.procs[i]? = some (callingInviter inviterId))
    (hprocs : s'.procs = (s.move i .ended).procs)
    (hgiven : s'.credits = s.credits ∧ s'.inviterCalls.length ≤ s.inviterCalls.length + 1)
    (hrow : s'.row.affRewardSettled = s.row.affRewardSettled) : s'.OnceInv := by
  have h₁ := stages_move _ hpos hprocs claiming
  have h₂ := stages_move _ hpos hprocs crediting
  have h₃ := stages_move _ hpos hprocs calling
  simp only [claiming, crediting, calling, Bool.false_eq_true, if_false, if_true,
    add_zero] at h₁ h₂ h₃
  have hcredited := h.credited
  have hcalled := h.called
  refine ⟨by rw [hgiven.1]; omega, by omega, fun hs => ?_⟩
  have hc₃ := (h.fresh (hrow.symm.trans hs)).2.2.2
  omega

theorem settled_of_kept (hkept : s.settlementKept i = true)
    (hover : s.overwriting i = some user) (hs : user.affRewardSettled = false) :
    s.row.affRewardSettled = false := by
  rw [settlementKept, hover] at hkept
  simpa [hs] using hkept

theorem OnceInv.begin (h : s.OnceInv) {op : BalanceOp}
    (hpos : s.procs[i]? = some (starting op)) : (s.begin cfg i op).OnceInv := by
  have hidle : Idle (.starting op) := ⟨rfl, rfl, rfl⟩
  cases op <;> unfold UserRace.begin <;> dsimp only <;> try split_ifs
  all_goals
    first
      | exact h
      | exact h.idle _ hpos rfl hidle ⟨rfl, rfl, rfl⟩ rfl id

theorem OnceInv.advance (h : s.OnceInv) (hpos : s.procs[i]? = some pos)
    (hkept : s.settlementKept i = true) : (s.advance cfg i pos).OnceInv := by
  cases pos with
  | starting => exact h.begin hpos
  | inviting user _ tiers =>
    cases tiers with
    | nil =>
      unfold advance
      dsimp only
      split_ifs with hlock
      · exact h
      · have hover : s.overwriting i = some user := by rw [overwriting, hpos]; exact if_neg hlock
        exact h.idle .ended hpos rfl ⟨rfl, rfl, rfl⟩ ⟨rfl, rfl, rfl⟩ rfl
          fun hs => settled_of_kept hkept hover hs
    | cons =>
      unfold advance
      dsimp only
      split_ifs <;> exact h.idle _ hpos rfl ⟨rfl, rfl, rfl⟩ ⟨rfl, rfl, rfl⟩ rfl id
  | committing user =>
    have hover : s.overwriting i = some user := by rw [overwriting, hpos]
    exact h.idle .ended hpos rfl ⟨rfl, rfl, rfl⟩ ⟨rfl, rfl, rfl⟩ rfl
      fun hs => settled_of_kept hkept hover hs
  | settling =>
    unfold advance
    dsimp only
    split_ifs with hlock hsettled
    · exact h
    · exact h.idle _ hpos rfl ⟨rfl, rfl, rfl⟩ ⟨rfl, rfl, rfl⟩ rfl id
    · exact h.claim hpos (Bool.eq_false_iff.2 hlock) (Bool.eq_false_iff.2 hsettled)
  | settled => exact h.settle hpos
  | _ =>
    unfold advance
    dsimp only
    try split_ifs
    all_goals
      first
        | exact h
        | exact h.credit hpos rfl ⟨by simp [move], rfl⟩ rfl
        | exact h.call hpos rfl ⟨rfl, by simp [move]⟩ rfl
        | exact h.idle _ hpos rfl ⟨rfl, rfl, rfl⟩ ⟨rfl, rfl, rfl⟩ rfl id

theorem OnceInv.step (h : s.OnceInv) (hkept : s.settlementKept i = true) :
    (s.step cfg i).OnceInv := by
  unfold UserRace.step
  split
  · exact h
  · rename_i pos hpos
    exact h.advance hpos hkept

end Reward

/-- Where no write of the whole row takes back that the reward is settled, the invitee is credited
at most once. -/
theorem reward_granted_once (cfg : InviteSettings) (row : UserRow) (tierGrants : List ℤ)
    (ops : List BalanceOp) (es : List ℕ)
    (hes : Along (step cfg) (fun s i => s.settlementKept i = true) (init row tierGrants ops) es) :
    (run (step cfg) (init row tierGrants ops) es).credits.length ≤ 1 ∧
      (run (step cfg) (init row tierGrants ops) es).inviterCalls.length ≤ 1 := by
  have h : (run (step cfg) (init row tierGrants ops) es).OnceInv :=
    Along.run_inv (fun _ _ hs hi => hs.step hi) (OnceInv.init row tierGrants ops) hes
  have hcredited := h.credited
  have hcalled := h.called
  constructor <;> omega

def transferAndPayments : List BalanceOp :=
  [.transferAffQuotaToQuota 500000, .maybeGrantInviteReward, .maybeGrantInviteReward]

theorem reward_granted_once_sample :
    (run (step inviteSettings) (init invitee [] transferAndPayments)
      [0, 0, 0, 1, 2, 1, 1, 2, 1, 1, 2]).credits.length ≤ 1 ∧
      (run (step inviteSettings) (init invitee [] transferAndPayments)
        [0, 0, 0, 1, 2, 1, 1, 2, 1, 1, 2]).inviterCalls.length ≤ 1 :=
  reward_granted_once inviteSettings invitee [] transferAndPayments
    [0, 0, 0, 1, 2, 1, 1, 2, 1, 1, 2] (by decide)

/-- The first payment is rewarded between the read and the `Save` of the transfer, which takes the
settlement back. -/
theorem reward_granted_twice : (run (step inviteSettings) (init invitee [] transferAndPayments)
      [0, 1, 1, 1, 1, 1, 0, 0, 2, 2, 2, 2, 2]).credits = [250000, 250000] ∧
      (run (step inviteSettings) (init invitee [] transferAndPayments)
        [0, 1, 1, 1, 1, 1, 0, 0, 2, 2, 2, 2, 2]).inviterCalls = [1, 1] := by
  decide

end UserRace

end AggreApi
