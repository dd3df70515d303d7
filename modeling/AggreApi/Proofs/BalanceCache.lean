import AggreApi.BalanceCache

/-!
# The cached balance is the stored one while every writer takes care of the entry

`IncreaseUserQuota`, `DecreaseUserQuota` and a wallet purchase keep the entry in agreement.
`Redeem`, the top-ups and `TransferAffQuotaToQuota` write the row alone.
-/

namespace AggreApi

namespace BalanceStore

variable {cfg : InviteSettings} {s : BalanceStore}

/-- What `GetUserQuota` answers is the stored balance. -/
def Agrees (s : BalanceStore) : Prop := s.getUserQuota = s.row.quota

theorem agrees_of_none (h : s.cached = none) : s.Agrees := by
  rw [Agrees, getUserQuota, h, Option.getD_none]

theorem agrees_of_some {q : ℤ} (h : s.cached = some q) : s.Agrees ↔ q = s.row.quota := by
  rw [Agrees, getUserQuota, h, Option.getD_some]

theorem agrees_addQuota_iff (h : s.Agrees) (delta : ℤ) :
    (s.addQuota delta).Agrees ↔ delta = 0 ∨ s.cached = none := by
  cases hc : s.cached with
  | none =>
    have hnone : (s.addQuota delta).cached = none := hc
    simpa using agrees_of_none hnone
  | some q =>
    have hsome : (s.addQuota delta).cached = some q := hc
    have hq : q = s.row.quota := (agrees_of_some hc).1 h
    rw [agrees_of_some hsome, hq]
    change s.row.quota = s.row.quota + delta ↔ _
    simp

theorem agrees_adjust_iff (h : s.Agrees) (delta ttl : ℤ) :
    ((s.addQuota delta).cacheIncrUserQuota delta ttl).Agrees ↔
      delta = 0 ∨ s.cached = none ∨ 0 < ttl := by
  unfold cacheIncrUserQuota
  split_ifs with httl
  · simp only [httl, or_true, iff_true]
    cases hc : s.cached with
    | none => exact agrees_of_none (by rw [addQuota, hc, Option.map_none])
    | some q =>
      have hq : q = s.row.quota := (agrees_of_some hc).1 h
      refine (agrees_of_some (q := q + delta) (by rw [addQuota, hc, Option.map_some])).2 ?_
      rw [hq]
      rfl
  · simpa [httl] using agrees_addQuota_iff h delta

theorem agrees_transfer_iff (h : s.Agrees) (quota : ℤ) : (s.step cfg (.transfer quota)).Agrees ↔
      s.transfers cfg quota = false ∨ quota = 0 ∨ s.cached = none := by
  unfold step
  dsimp only
  split_ifs with hok
  · simp only [hok, Bool.true_eq_false, false_or]
    exact agrees_addQuota_iff h quota
  · simpa [hok] using h

theorem agrees_grant_iff (h : s.Agrees) (ttl : ℤ) : (s.step cfg (.grant ttl)).Agrees ↔
      s.grants cfg = false ∨ cfg.quotaForInvitee ≤ 0 ∨ s.cached = none ∨ 0 < ttl := by
  unfold step
  dsimp only
  have hset : ({ s with row := { s.row with affRewardSettled := true } } : BalanceStore).Agrees := h
  split_ifs with hok hpos
  · rw [agrees_adjust_iff hset]
    have hne : cfg.quotaForInvitee ≠ 0 := by omega
    simp [hok, hne, not_le.2 hpos]
  · simpa [not_lt.1 hpos] using hset
  · simpa [hok] using h

theorem agrees_filled (row : UserRow) : (filled row).Agrees := rfl

theorem agrees_fill (h : s.Agrees) : (s.step cfg .fill).Agrees :=
  (agrees_of_some (s := s.step cfg .fill) (q := s.getUserQuota) rfl).2 h

theorem agrees_refresh (h : s.Agrees) (ttl : ℤ) : (s.step cfg (.refresh ttl)).Agrees := by
  unfold step updateUserQuotaCache
  dsimp only
  split_ifs
  · cases hc : s.cached with
    | none => exact agrees_of_none rfl
    | some => exact (agrees_of_some rfl).2 rfl
  · exact h

theorem agrees_step_iff (cfg : InviteSettings) (e : BalanceStep) (h : s.Agrees) :
    (s.step cfg e).Agrees ↔ s.stepKept cfg e = true := by
  cases e with
  | adjust delta ttl => simpa [stepKept, step] using agrees_adjust_iff h delta ttl
  | credit delta => simpa [stepKept, step] using agrees_addQuota_iff h delta
  | transfer quota => simpa [stepKept] using agrees_transfer_iff h quota
  | deduct quotaCost | expire => simpa [stepKept] using agrees_of_none rfl
  | grant ttl => simpa [stepKept] using agrees_grant_iff h ttl
  | refresh ttl => simpa [stepKept] using agrees_refresh h ttl
  | fill => simpa [stepKept] using agrees_fill h

/-- From a right entry, `GetUserQuota` answers the stored balance all along exactly when each step
takes care of the entry. -/
theorem cached_balance_iff (cfg : InviteSettings) (row : UserRow) (calls : List BalanceCall) :
    (∀ pre post, (filled row).trace cfg calls = pre ++ post →
        (run (step cfg) (filled row) pre).getUserQuota
          = (run (step cfg) (filled row) pre).row.quota) ↔
      Along (step cfg) (fun s e => s.stepKept cfg e = true) (filled row)
        ((filled row).trace cfg calls) :=
  (along_iff_reached (I := Agrees) (fun _ e h => agrees_step_iff cfg e h) (agrees_filled row)).symm

def customer : UserRow := ⟨1000000, 0, 0, 0, 0, false⟩

def noRewards : InviteSettings := ⟨1, 500000, 0, 0, false, []⟩

/-- A code is redeemed, and then a request is charged. -/
theorem redeemed_not_cached : (run (call noRewards) (filled customer)
        [.redeem 500000, .decreaseUserQuota 300000 60]).getUserQuota = 700000 ∧
      (run (call noRewards) (filled customer)
        [.redeem 500000, .decreaseUserQuota 300000 60]).row.quota = 1200000 := by
  decide

end BalanceStore

end AggreApi
