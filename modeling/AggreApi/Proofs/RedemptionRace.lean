import AggreApi.RedemptionRace
import AggreApi.Lib.Run

/-!
# A code is redeemed once while every commit finds it enabled

The status is checked on the row that was read and the `Save` is unconditional, so two calls that
both read the code as enabled both redeem it.
-/

namespace AggreApi

variable {redemption : Redemption} {quota : ℕ → ℤ}

namespace RedemptionRace

variable (users : Finset ℕ)

section Step

variable {s : RedemptionRace} {i : ℕ} {p : RedeemProc} {pos : RedeemAt}

def held : RedeemAt → Option Redemption
  | .crediting r | .saving r | .committing r => some r
  | _ => none

/-- How often the code was redeemed by the users of a set. -/
def redeemedBy (s : RedemptionRace) : ℕ :=
  s.procs.countP fun p => p.pos.succeeded && p.userId ∈ users

/-- The quota of the code for each redemption, which is what every call under way redeems. -/
structure QuotaInv (redemption : Redemption) (quota : ℕ → ℤ) (s : RedemptionRace) : Prop where
  code : s.redemption.quota = redemption.quota
  held : ∀ p ∈ s.procs, ∀ r ∈ held p.pos, r.quota = redemption.quota
  sum : ∀ users : Finset ℕ, ∑ u ∈ users, s.quota u
    = ∑ u ∈ users, quota u + s.redeemedBy users * redemption.quota

theorem QuotaInv.init (redemption : Redemption) (quota : ℕ → ℤ) (calls : List (String × ℕ)) :
    (init redemption quota calls).QuotaInv redemption quota := by
  refine ⟨rfl, ?_, fun users => ?_⟩
  · intro p hp r hr
    obtain ⟨c, -, rfl⟩ := List.mem_map.1 hp
    cases hr
  · have : (RedemptionRace.init redemption quota calls).redeemedBy users = 0 := by
      simp [redeemedBy, RedemptionRace.init, List.countP_map, Function.comp_def,
        RedeemAt.succeeded]
    rw [this, Nat.cast_zero, zero_mul, add_zero]
    rfl

theorem redeemedBy_move (pos : RedeemAt) (hp : s.procs[i]? = some p)
    (hnot : p.pos.succeeded = false) :
    (s.move i p pos).redeemedBy users
      = s.redeemedBy users + if pos.succeeded && p.userId ∈ users then 1 else 0 := by
  have h := countP_set_add { p with pos := pos }
    (fun q => q.pos.succeeded && q.userId ∈ users) hp
  rw [hnot, Bool.false_and, if_neg Bool.false_ne_true, add_zero] at h
  exact h

theorem QuotaInv.move (h : s.QuotaInv redemption quota) (hp : s.procs[i]? = some p)
    (hnot : p.pos.succeeded = false) (hnot' : pos.succeeded = false)
    (hheld : ∀ r ∈ RedemptionRace.held pos, r.quota = redemption.quota) :
    (s.move i p pos).QuotaInv redemption quota := by
  refine ⟨h.code, ?_, fun users => ?_⟩
  · intro q hq r hr
    rcases List.mem_or_eq_of_mem_set hq with hold | rfl
    · exact h.held q hold r hr
    · exact hheld r hr
  · rw [redeemedBy_move users pos hp hnot, hnot', Bool.false_and, if_neg Bool.false_ne_true]
    exact h.sum users

theorem QuotaInv.commit
    (h : s.QuotaInv redemption quota) (hp : s.procs[i]? = some p) {r : Redemption}
    (hpos : p.pos = .committing r) :
    ((s.move i p (.redeemed r.quota)).commit p.userId r).QuotaInv redemption quota := by
  have hr : r.quota = redemption.quota :=
    h.held p (List.mem_of_getElem? hp) r (by rw [hpos]; rfl)
  refine ⟨hr, ?_, fun users => ?_⟩
  · intro q hq r' hr'
    rcases List.mem_or_eq_of_mem_set hq with hold | rfl
    · exact h.held q hold r' hr'
    · cases hr'
  · have hcount := redeemedBy_move users (.redeemed r.quota) hp (by rw [hpos]; rfl)
    change ∑ u ∈ users, Function.update s.quota p.userId (s.quota p.userId + r.quota) u
      = _ + ((s.move i p (.redeemed r.quota)).redeemedBy users : ℤ) * _
    rw [hcount, hr]
    have hsum := h.sum users
    by_cases hmem : p.userId ∈ users
    · rw [Finset.sum_eq_add_sum_sdiff_singleton_of_mem hmem s.quota] at hsum
      rw [Finset.sum_update_of_mem hmem, if_pos (by simp [RedeemAt.succeeded, hmem])]
      push_cast
      rw [add_mul, one_mul]
      linarith
    · rw [Finset.sum_update_of_notMem hmem, if_neg (by simp [hmem]), add_zero]
      exact hsum

theorem QuotaInv.advance
    (h : s.QuotaInv redemption quota) (e : RedeemEvent) (hp : s.procs[e.proc]? = some p) :
    (s.advance e p).QuotaInv redemption quota := by
  have hheld := h.held p (List.mem_of_getElem? hp)
  unfold RedemptionRace.advance
  cases hpos : p.pos with
  | starting =>
    dsimp only
    split_ifs
    · exact h.move hp (by rw [hpos]; rfl) rfl (by simp [RedemptionRace.held])
    · exact h.move hp (by rw [hpos]; rfl) rfl (by simp [RedemptionRace.held])
    · exact h.move hp (by rw [hpos]; rfl) rfl (by simp [RedemptionRace.held])
    · exact h.move hp (by rw [hpos]; rfl) rfl (by simpa [RedemptionRace.held] using h.code)
  | crediting =>
    rw [hpos] at hheld
    dsimp only
    split_ifs
    · exact h
    · exact h.move hp (by rw [hpos]; rfl) rfl (by simp [RedemptionRace.held])
    · exact h.move hp (by rw [hpos]; rfl) rfl hheld
  | saving r =>
    rw [hpos] at hheld
    dsimp only
    split_ifs
    · exact h
    · exact h.move hp (by rw [hpos]; rfl) rfl (by simp [RedemptionRace.held])
    · refine h.move hp (by rw [hpos]; rfl) rfl fun r' hr' => ?_
      cases hr'
      exact hheld r rfl
  | committing =>
    dsimp only
    split_ifs
    · exact h.move hp (by rw [hpos]; rfl) rfl (by simp [RedemptionRace.held])
    · exact h.commit hp hpos
  | redeemed => exact h
  | failed => exact h

theorem QuotaInv.step (h : s.QuotaInv redemption quota) (e : RedeemEvent) :
    (s.step e).QuotaInv redemption quota := by
  unfold RedemptionRace.step
  split
  · exact h
  · rename_i p hp
    exact h.advance e hp

theorem successes_move (pos : RedeemAt) (hp : s.procs[i]? = some p)
    (hnot : p.pos.succeeded = false) :
    (s.move i p pos).successes = s.successes + if pos.succeeded then 1 else 0 := by
  have h := countP_set_add { p with pos := pos } (fun q => q.pos.succeeded) hp
  rw [hnot, if_neg Bool.false_ne_true, add_zero] at h
  exact h

/-- The code is enabled exactly while nobody has redeemed it or is about to commit. -/
structure StatusInv (s : RedemptionRace) : Prop where
  status : s.redemption.status = .enabled ↔ s.successes = 0
  saved : ∀ p ∈ s.procs, ∀ r, p.pos = .committing r → r.status ≠ .enabled

theorem StatusInv.init (henabled : redemption.status = .enabled)
    (quota : ℕ → ℤ) (calls : List (String × ℕ)) : (init redemption quota calls).StatusInv := by
  refine ⟨iff_of_true henabled ?_, ?_⟩
  · simp [successes, RedemptionRace.init, List.countP_map, Function.comp_def,
      RedeemAt.succeeded]
  · intro p hp r hr
    obtain ⟨c, -, rfl⟩ := List.mem_map.1 hp
    cases hr

theorem StatusInv.move (h : s.StatusInv) (hp : s.procs[i]? = some p)
    (hnot : p.pos.succeeded = false) (hnot' : pos.succeeded = false)
    (hsaved : ∀ r, pos = .committing r → r.status ≠ .enabled) :
    (s.move i p pos).StatusInv ∧ (s.move i p pos).successes = s.successes := by
  have hsucc := successes_move pos hp hnot
  rw [hnot', if_neg Bool.false_ne_true, add_zero] at hsucc
  refine ⟨⟨by rw [hsucc]; exact h.status, ?_⟩, hsucc⟩
  intro q hq r hr
  rcases List.mem_or_eq_of_mem_set hq with hold | rfl
  · exact h.saved q hold r hr
  · exact hsaved r hr

theorem StatusInv.commit (h : s.StatusInv) (hp : s.procs[i]? = some p) {r : Redemption}
    (hpos : p.pos = .committing r) :
    ((s.move i p (.redeemed r.quota)).commit p.userId r).StatusInv ∧
      ((s.move i p (.redeemed r.quota)).commit p.userId r).successes = s.successes + 1 := by
  have hsucc : ((s.move i p (.redeemed r.quota)).commit p.userId r).successes = s.successes + 1 :=
    successes_move _ hp (by rw [hpos]; rfl)
  have hr := h.saved p (List.mem_of_getElem? hp) r hpos
  refine ⟨⟨iff_of_false hr (by omega), ?_⟩, hsucc⟩
  intro q hq r' hr'
  rcases List.mem_or_eq_of_mem_set hq with hold | rfl
  · exact h.saved q hold r' hr'
  · cases hr'

theorem StatusInv.advance (h : s.StatusInv) (e : RedeemEvent) (hp : s.procs[e.proc]? = some p) :
    (s.advance e p).StatusInv ∧
      (s.advance e p).successes = s.successes + if !e.fail && p.pos.holdsCode then 1 else 0 := by
  have hsaved := h.saved p (List.mem_of_getElem? hp)
  unfold RedemptionRace.advance
  cases hpos : p.pos with
  | starting =>
    simp only [RedeemAt.holdsCode, Bool.and_false, Bool.false_eq_true, if_false, add_zero]
    split_ifs <;> exact h.move hp (by rw [hpos]; rfl) rfl nofun
  | crediting =>
    simp only [RedeemAt.holdsCode, Bool.and_false, Bool.false_eq_true, if_false, add_zero]
    split_ifs
    · exact ⟨h, rfl⟩
    · exact h.move hp (by rw [hpos]; rfl) rfl nofun
    · exact h.move hp (by rw [hpos]; rfl) rfl nofun
  | saving =>
    simp only [RedeemAt.holdsCode, Bool.and_false, Bool.false_eq_true, if_false, add_zero]
    split_ifs
    · exact ⟨h, rfl⟩
    · exact h.move hp (by rw [hpos]; rfl) rfl nofun
    · refine h.move hp (by rw [hpos]; rfl) rfl fun r' hr' => ?_
      obtain rfl := RedeemAt.committing.inj hr'
      exact nofun
  | committing =>
    simp only [RedeemAt.holdsCode, Bool.and_true]
    cases e.fail with
    | true => exact h.move hp (by rw [hpos]; rfl) rfl nofun
    | false => exact h.commit hp hpos
  | redeemed _ | failed _ => simpa [RedeemAt.holdsCode] using h

theorem StatusInv.step (h : s.StatusInv) (e : RedeemEvent) : (s.step e).StatusInv ∧
      (s.step e).successes = s.successes + if s.committing e then 1 else 0 := by
  unfold RedemptionRace.step committing
  split
  · rename_i hp
    simpa [hp] using h
  · rename_i p hp
    rw [hp]
    exact h.advance e hp

def RedeemedOnce (s : RedemptionRace) : Prop := s.StatusInv ∧ s.successes ≤ 1

theorem redeemedOnce_step_iff (h : s.RedeemedOnce) (e : RedeemEvent) :
    (s.step e).RedeemedOnce ↔ s.enabledAtCommit e = true := by
  obtain ⟨hinv, hle⟩ := h
  obtain ⟨hinv', hsucc⟩ := hinv.step e
  have hstatus := hinv.status
  rw [RedeemedOnce, hsucc, enabledAtCommit, decide_eq_true_eq, hstatus]
  cases s.committing e with
  | true => simpa using fun _ => hinv'
  | false => simpa [hle] using hinv'

end Step

theorem successes_le_run {s : RedemptionRace} (h : s.StatusInv) (es : List RedeemEvent) :
    s.successes ≤ (run step s es).successes := by
  have hinv : (run step s es).StatusInv ∧ s.successes ≤ (run step s es).successes := by
    refine run_inv (I := fun s' : RedemptionRace => s'.StatusInv ∧ s.successes ≤ s'.successes)
      ?_ ⟨h, le_rfl⟩ es
    rintro s' e ⟨hinv, hle⟩
    obtain ⟨hinv', hsucc⟩ := hinv.step e
    exact ⟨hinv', by omega⟩
  exact hinv.2

theorem redeemedBy_le (s : RedemptionRace) : s.redeemedBy users ≤ s.successes :=
  List.countP_mono_left fun _ _ hp => (Bool.and_eq_true_iff.1 hp).1

/-- A code is worth its quota once, in a run that starts with it enabled, exactly when every commit
of a redemption finds it enabled. -/
theorem redeemed_once_iff {redemption : Redemption} (henabled : redemption.status = .enabled)
    (quota : ℕ → ℤ) (calls : List (String × ℕ)) (es : List RedeemEvent) :
    ((run step (init redemption quota calls) es).successes ≤ 1 ∧
        ∀ users : Finset ℕ, ∑ u ∈ users, (run step (init redemption quota calls) es).quota u
          ≤ ∑ u ∈ users, quota u + max 0 redemption.quota) ↔
      Along step (fun s e => s.enabledAtCommit e = true) (init redemption quota calls) es := by
  have hinit := StatusInv.init henabled quota calls
  have hzero : (init redemption quota calls).successes = 0 := hinit.status.1 henabled
  have honce : (init redemption quota calls).RedeemedOnce := ⟨hinit, by omega⟩
  rw [along_iff_reached (I := RedeemedOnce) (fun _ e h => redeemedOnce_step_iff h e) honce]
  constructor
  · rintro ⟨hle, -⟩ pre post rfl
    have hpre : (run step (init redemption quota calls) pre).StatusInv :=
      run_inv (fun _ e h => (h.step e).1) hinit pre
    refine ⟨hpre, le_trans (successes_le_run hpre post) ?_⟩
    rwa [← run_append]
  · intro h
    have hle := (h es [] (List.append_nil es).symm).2
    refine ⟨hle, fun users => ?_⟩
    have hquota := run_inv (I := QuotaInv redemption quota) (fun _ e h => h.step e)
      (QuotaInv.init redemption quota calls) es
    have hsum := hquota.sum users
    have hby := (redeemedBy_le users _).trans hle
    rw [hsum]
    interval_cases hn : (run step (init redemption quota calls) es).redeemedBy users
    · simp
    · simp

def giftCode : Redemption := ⟨"9f86d081884c7d659a2feaa0c55ad015", .enabled, 500000, 0, 0, 0⟩

def bothUsers : List (String × ℕ) := [(giftCode.key, 1), (giftCode.key, 2)]

def redeemSteps (procs : List ℕ) : List RedeemEvent := procs.map fun i => ⟨i, i + 7, false⟩

theorem redeemed_once_iff_sample : giftCode.status = .enabled ∧
      (((run step (init giftCode (fun _ => 0) bothUsers)
            (redeemSteps [0, 0, 0, 0, 1, 1])).successes ≤ 1 ∧
          ∀ users : Finset ℕ, ∑ u ∈ users, (run step (init giftCode (fun _ => 0) bothUsers)
              (redeemSteps [0, 0, 0, 0, 1, 1])).quota u
            ≤ ∑ u ∈ users, (fun _ => (0 : ℤ)) u + max 0 giftCode.quota) ↔
        Along step (fun s e => s.enabledAtCommit e = true) (init giftCode (fun _ => 0) bothUsers)
          (redeemSteps [0, 0, 0, 0, 1, 1])) :=
  ⟨rfl, redeemed_once_iff rfl (fun _ => 0) bothUsers (redeemSteps [0, 0, 0, 0, 1, 1])⟩

/-- Both calls read the code as enabled before either saves it. -/
theorem redeemed_twice : (run step (init giftCode (fun _ => 0) bothUsers)
        (redeemSteps [0, 1, 0, 1, 0, 0, 1, 1])).successes = 2 ∧
      ∑ u ∈ Finset.range 3, (run step (init giftCode (fun _ => 0) bothUsers)
        (redeemSteps [0, 1, 0, 1, 0, 0, 1, 1])).quota u = 1000000 := by
  decide

/-- However often the code is redeemed and in whatever interleaving, users gain its quota exactly
as often as their calls have succeeded. -/
theorem redeemed_quota_sum (redemption : Redemption) (quota : ℕ → ℤ)
    (calls : List (String × ℕ)) (es : List RedeemEvent) (users : Finset ℕ) :
    ∑ u ∈ users, (run step (init redemption quota calls) es).quota u = ∑ u ∈ users, quota u +
      (run step (init redemption quota calls) es).redeemedBy users * redemption.quota :=
  (run_inv (I := QuotaInv redemption quota) (fun _ e h => h.step e)
    (QuotaInv.init redemption quota calls) es).sum users

end RedemptionRace

end AggreApi
