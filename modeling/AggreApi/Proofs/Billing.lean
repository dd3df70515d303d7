import AggreApi.Billing
import AggreApi.Proofs.Subscription

/-!
# Opening a session charges one source or nothing

A session that opens has charged one funding source and the token by the same amount; an attempt
that fails leaves everything as it was, and so does a fallback start from there.
-/

namespace AggreApi

open Except

variable {quota amount : ℤ} {db db' : Db} {err : Option String} {env : SubscriptionEnv}
  {funding funding' : Funding}

namespace Db

@[simp] theorem chargeToken_zero (db : Db) (id : ℕ) : db.chargeToken id 0 = db := by
  simp [chargeToken]

theorem chargeToken_chargeToken (db : Db) (id : ℕ) (a b : ℤ) :
    (db.chargeToken id a).chargeToken id b = db.chargeToken id (a + b) := by
  simp only [chargeToken, Function.update_self, Function.update_idem, mk.injEq, true_and, and_true]
  exact ⟨by rw [sub_sub], by rw [add_assoc]⟩

theorem increaseTokenQuota_chargeToken (db : Db) (id : ℕ) (hq : 0 ≤ quota) :
    (db.chargeToken id quota).increaseTokenQuota id quota none = .ok db := by
  rw [increaseTokenQuota, updateTokenQuota, if_neg (not_lt.2 hq), chargeToken_chargeToken,
    add_neg_cancel, chargeToken_zero]

variable {id : ℕ} {delta : ℤ}

theorem updateUserQuota_ok
    (h : db.updateUserQuota id quota delta err = .ok db') :
    db' = { db with userQuota := Function.update db.userQuota id (db.userQuota id + delta) } := by
  simp only [updateUserQuota] at h
  split at h
  · cases h
  split at h
  · cases h
  · exact (ok.inj h).symm

theorem updateTokenQuota_ok
    (h : db.updateTokenQuota id quota delta err = .ok db') : db' = db.chargeToken id delta := by
  simp only [updateTokenQuota] at h
  split at h
  · cases h
  split at h
  · cases h
  · exact (ok.inj h).symm

end Db

/-- The part of a charge the token takes: none in the playground. -/
def tokenShare (info : RelayInfo) (amount : ℤ) : ℤ := if info.isPlayground then 0 else amount

/-- The token is charged its share, in both of its columns. -/
def TokenCharged (info : RelayInfo) (before after : Db) (amount : ℤ) : Prop :=
  after.tokenRemain = (before.chargeToken info.tokenId (tokenShare info amount)).tokenRemain ∧
    after.tokenUsed = (before.chargeToken info.tokenId (tokenShare info amount)).tokenUsed

namespace Funding

/-- The source is debited by the amount, and the other kind of source is not touched. -/
def Charged (env : SubscriptionEnv) (before after : Db) (amount : ℤ) : Funding → Prop
  | .wallet userId _ =>
    after.userQuota = Function.update before.userQuota userId (before.userQuota userId - amount) ∧
      after.sub = before.sub
  | .subscription _ _ _ id _ =>
    after.userQuota = before.userQuota ∧ Debited env amount id before.sub.subs after.sub.subs
  | .team _ _ _ id _ =>
    after.userQuota = before.userQuota ∧ Debited env amount id before.sub.subs after.sub.subs

/-- The source remembers the amount it is to give back. -/
def Holds (db : Db) (amount : ℤ) : Funding → Prop
  | .wallet _ consumed => consumed = amount
  | .subscription requestId _ _ id preConsumed => preConsumed = amount ∧ 0 < amount ∧
    ∃ userId, db.sub.records.find requestId = some ⟨requestId, userId, id, amount, .consumed⟩
  | .team requestId _ _ id preConsumed => preConsumed = amount ∧ 0 < amount ∧
    ∃ userId, db.sub.records.find requestId = some ⟨requestId, userId, id, amount, .consumed⟩

def blank : Funding → Funding
  | .wallet userId _ => .wallet userId 0
  | .subscription requestId userId amount _ _ => .subscription requestId userId amount 0 0
  | .team requestId teamId amount _ _ => .team requestId teamId amount 0 0

/-- A source that can be asked for the amount. -/
def FreshFor (db : Db) (amount : ℤ) : Funding → Prop
  | .wallet _ consumed => consumed = 0 ∧ 0 ≤ amount
  | .subscription requestId _ own _ _ => own = amount ∧ db.sub.records.find requestId = none
  | .team requestId _ own _ _ => own = amount ∧ db.sub.records.find requestId = none

theorem exists_of_map_eq_ok {α β : Type} {x : Option (Except String α)} {g : α → β} {b : β}
    (h : x.map (Except.map g) = some (.ok b)) : ∃ a, x = some (.ok a) ∧ g a = b := by
  obtain _ | _ | a := x
  · cases h
  · exact absurd h (by simp [Except.map])
  · exact ⟨a, rfl, ok.inj (Option.some.inj h)⟩

variable {f : SessionFaults}

theorem preConsume_blank
    (h : funding.preConsume env f db amount = some (.ok (db', funding'))) :
    funding'.blank = funding.blank := by
  cases funding with
  | wallet =>
    simp only [preConsume] at h
    split at h
    · simp only [Option.some.injEq, ok.injEq, Prod.mk.injEq] at h
      rw [← h.2]
    · obtain ⟨_, -, he⟩ := exists_of_map_eq_ok (x := some _) h
      rw [← (Prod.mk.inj he).2]
      rfl
  | subscription requestId userId own id pre | team requestId teamId own id pre =>
    obtain ⟨_, -, he⟩ := exists_of_map_eq_ok h
    rw [← (Prod.mk.inj he).2]
    rfl

theorem preConsume_userQuota (ha : amount ≤ 0)
    (h : funding.preConsume env f db amount = some (.ok (db', funding'))) :
    db'.userQuota = db.userQuota := by
  cases funding with
  | wallet =>
    simp only [preConsume, if_pos ha, Option.some.injEq, ok.injEq, Prod.mk.injEq] at h
    rw [h.1]
  | subscription requestId userId own id pre | team requestId teamId own id pre =>
    obtain ⟨_, -, he⟩ := exists_of_map_eq_ok h
    rw [← (Prod.mk.inj he).1]

theorem preConsume_ok (hf : funding.FreshFor db amount)
    (h : funding.preConsume env f db amount = some (.ok (db', funding'))) :
    0 ≤ amount ∧ funding'.Charged env db db' amount ∧ funding'.Holds db' amount ∧
      db'.tokenRemain = db.tokenRemain ∧ db'.tokenUsed = db.tokenUsed ∧
      db'.memberUsed = db.memberUsed := by
  cases funding with
  | wallet =>
    obtain ⟨rfl, ha⟩ := hf
    simp only [preConsume] at h
    split at h
    · obtain rfl : amount = 0 := by omega
      simp only [Option.some.injEq, ok.injEq, Prod.mk.injEq] at h
      obtain ⟨rfl, rfl⟩ := h
      exact ⟨ha, ⟨by simp, rfl⟩, rfl, rfl, rfl, rfl⟩
    · obtain ⟨_, hd, he⟩ := exists_of_map_eq_ok (x := some _) h
      obtain ⟨rfl, rfl⟩ := Prod.mk.inj he
      obtain rfl := Db.updateUserQuota_ok (Option.some.inj hd)
      exact ⟨ha, ⟨rfl, rfl⟩, rfl, rfl, rfl, rfl⟩
  | subscription =>
    obtain ⟨rfl, hr⟩ := hf
    obtain ⟨⟨sub, res⟩, hp, he⟩ := exists_of_map_eq_ok h
    obtain ⟨rfl, rfl⟩ := Prod.mk.inj he
    unfold preConsumeUserSubscription at hp
    split at hp
    · cases hp
    · obtain ⟨hpos, hpre, hdeb, -⟩ := preConsumeSubscription_ok hr hp
      exact ⟨hpos.le, ⟨rfl, hdeb⟩, ⟨hpre, hpos, preConsumeSubscription_record hr hp⟩, rfl, rfl,
        rfl⟩
  | team =>
    obtain ⟨rfl, hr⟩ := hf
    obtain ⟨⟨sub, res⟩, hp, he⟩ := exists_of_map_eq_ok h
    obtain ⟨rfl, rfl⟩ := Prod.mk.inj he
    unfold preConsumeTeamSubscription at hp
    split at hp
    · cases hp
    · obtain ⟨hpos, hpre, hdeb, -⟩ := preConsumeSubscription_ok hr hp
      exact ⟨hpos.le, ⟨rfl, hdeb⟩, ⟨hpre, hpos, preConsumeSubscription_record hr hp⟩, rfl, rfl,
        rfl⟩

end Funding

structure Opened (env : SubscriptionEnv) (info : RelayInfo) (before after : Db)
    (s : BillingSession) : Prop where
  funding : s.funding.Charged env before after s.preConsumedQuota
  token : TokenCharged info before after s.preConsumedQuota
  member : after.memberUsed = before.memberUsed
  holds : s.funding.Holds after s.preConsumedQuota
  nonneg : 0 ≤ s.preConsumedQuota
  tokenConsumed : s.tokenConsumed = s.preConsumedQuota
  unsettled : s.settled = false
  unfunded : s.fundingSettled = false
  unrefunded : s.refunded = false

def AllOrNothing (E : Db → Prop) (P : Db → BillingSession → Prop) :
    Option (Db × Except ApiError BillingSession) → Prop
  | none => True
  | some (db', .error _) => E db'
  | some (db', .ok s) => P db' s

variable {E : Db → Prop} {P : Db → BillingSession → Prop}

theorem AllOrNothing.mono {E' : Db → Prop} {P' : Db → BillingSession → Prop}
    (hE : ∀ db', E db' → E' db') (hP : ∀ db' s, P db' s → P' db' s) :
    ∀ {x : Option (Db × Except ApiError BillingSession)}, AllOrNothing E P x →
      AllOrNothing E' P' x
  | none, _ => trivial
  | some (_, .error _), h => hE _ h
  | some (_, .ok _), h => hP _ _ h

theorem AllOrNothing.orElse
    {first : Option (Db × Except ApiError BillingSession)}
    {second : Db → Option (Db × Except ApiError BillingSession)} (h₁ : AllOrNothing E P first)
    (h₂ : ∀ db', E db' → AllOrNothing E P (second db')) :
    AllOrNothing E P (orElse first second) := by
  match first, h₁ with
  | none, _ => trivial
  | some (_, .ok _), h => exact h
  | some (db', .error e), h =>
    simp only [AggreApi.orElse]
    split_ifs
    · exact h₂ db' h
    · exact h

/-- What a failed attempt leaves. -/
structure Undone (compensated : Prop) (before after : Db) : Prop where
  userQuota : after.userQuota = before.userQuota
  memberUsed : after.memberUsed = before.memberUsed
  sub : after.sub = before.sub
  all : compensated → after = before

theorem Undone.refl (c : Prop) (db : Db) : Undone c db db := ⟨rfl, rfl, rfl, fun _ => rfl⟩

variable {c : Prop} {db₁ db₂ : Db}

theorem Undone.trans {db₃ : Db} (h₁ : Undone c db₁ db₂)
    (h₂ : Undone c db₂ db₃) : Undone c db₁ db₃ :=
  ⟨h₂.userQuota.trans h₁.userQuota, h₂.memberUsed.trans h₁.memberUsed, h₂.sub.trans h₁.sub,
    fun hc => (h₂.all hc).trans (h₁.all hc)⟩

theorem Undone.imp {c' : Prop} (h : Undone c db₁ db₂) (hc : c' → c) :
    Undone c' db₁ db₂ := ⟨h.userQuota, h.memberUsed, h.sub, fun h' => h.all (hc h')⟩

section PreConsume

variable {cfg : BillingConfig} {env : SubscriptionEnv} {r : BillingReads} {f : SessionFaults}
  {info : RelayInfo} {db : Db}

theorem preConsumeTokenQuota_ok {remain : Except String ℤ}
    (h : preConsumeTokenQuota cfg info remain err db quota = .ok db') :
    db' = db.chargeToken info.tokenId (tokenShare info quota) := by
  unfold preConsumeTokenQuota at h
  split at h
  · cases h
  split at h
  · rename_i hp
    rw [tokenShare, if_pos hp, Db.chargeToken_zero]
    exact (ok.inj h).symm
  rename_i hp
  split at h
  · cases h
  split at h
  · cases h
  rw [tokenShare, if_neg hp]
  exact Db.updateTokenQuota_ok h

theorem preConsume_allOrNothing {userQuota : ℤ} : AllOrNothing (Undone (f.increaseToken = none) db)
      (fun db' s => s.funding.blank = funding.blank ∧
        s.preConsumedQuota = (if shouldTrust cfg info userQuota funding then 0 else quota) ∧
        (s.preConsumedQuota ≤ 0 → db'.userQuota = db.userQuota) ∧
        (funding.FreshFor db s.preConsumedQuota → Opened env info db db' s))
      (preConsume cfg env r f info userQuota funding quota db) := by
  simp only [preConsume]
  generalize (if shouldTrust cfg info userQuota funding then 0 else quota) = e
  generalize hch : (if 0 < e then
    preConsumeTokenQuota cfg info r.tokenRemain f.decreaseToken db e else .ok db) = charged
  obtain _ | db₁ := charged
  · exact Undone.refl _ _
  generalize ht : (if 0 < e then e else 0) = t
  have hdb₁ : db₁ = db.chargeToken info.tokenId (tokenShare info t) := by
    split_ifs at hch ht with he
    · exact ht ▸ preConsumeTokenQuota_ok hch
    · rw [← ht, tokenShare, ite_self, Db.chargeToken_zero]
      exact (ok.inj hch).symm
  simp only [hdb₁]
  generalize hx : funding.preConsume env f (db.chargeToken _ _) e = x
  obtain _ | _ | ⟨db₂, funding'⟩ := x
  · trivial
  · simp only [AllOrNothing]
    split_ifs with hback
    · rw [tokenShare, if_neg (by simp [hback.2])]
      split
      · rename_i hi
        obtain rfl := Db.updateTokenQuota_ok hi
        refine ⟨rfl, rfl, rfl, fun _ => ?_⟩
        rw [Db.chargeToken_chargeToken, add_neg_cancel, Db.chargeToken_zero]
      · rename_i hi
        refine ⟨rfl, rfl, rfl, fun hc => ?_⟩
        rw [hc, Db.increaseTokenQuota_chargeToken db _ hback.1.le] at hi
        cases hi
    · have hshare : tokenShare info t = 0 := by
        unfold tokenShare
        split_ifs with hp
        · rfl
        · have : 0 ≤ t := by split_ifs at ht <;> omega
          have : ¬ 0 < t := fun h0 => hback ⟨h0, by simpa using hp⟩
          omega
      rw [hshare, Db.chargeToken_zero]
      exact Undone.refl _ _
  · refine ⟨Funding.preConsume_blank hx, rfl,
      fun he => (Funding.preConsume_userQuota he hx).trans (by rfl), fun hf => ?_⟩
    obtain ⟨he, hcharged, hholds, hremain, hused, hmember⟩ :=
      Funding.preConsume_ok (by cases funding <;> exact hf) hx
    obtain rfl : t = e := by split_ifs at ht <;> omega
    exact ⟨by cases funding' <;> exact hcharged, ⟨hremain, hused⟩, hmember, hholds, he, rfl, rfl,
      rfl, rfl⟩

/-- The sources a request can be charged to, as they are built. -/
def walletOf (info : RelayInfo) : Funding := .wallet info.userId 0

def subscriptionOf (info : RelayInfo) (preConsumedQuota : ℤ) : Funding :=
  .subscription info.requestId info.userId (subConsume preConsumedQuota) 0 0

def teamOf (info : RelayInfo) (preConsumedQuota : ℤ) : Funding :=
  .team info.requestId info.tokenTeamId (subConsume preConsumedQuota) 0 0

/-- The wallet is charged nothing because its owner is trusted. -/
def Trusted (cfg : BillingConfig) (r : BillingReads) (info : RelayInfo) : Prop :=
  ∃ userQuota, r.userQuota = .ok userQuota ∧
    shouldTrust cfg info userQuota (walletOf info) = true

variable {preConsumedQuota : ℤ}

theorem subConsume_pos (preConsumedQuota : ℤ) : 0 < subConsume preConsumedQuota := by
  unfold subConsume
  split_ifs <;> omega

@[simp] theorem shouldTrust_subscription (q : ℤ) (requestId : String) (userId id : ℕ)
    (amount pre : ℤ) :
    shouldTrust cfg info q (.subscription requestId userId amount id pre) = false := by
  simp [shouldTrust]

@[simp] theorem shouldTrust_team (q : ℤ) (requestId : String) (teamId id : ℕ) (amount pre : ℤ) :
    shouldTrust cfg info q (.team requestId teamId amount id pre) = false := by
  simp [shouldTrust]

def RightAmount (cfg : BillingConfig) (r : BillingReads) (info : RelayInfo)
    (preConsumedQuota : ℤ) (s : BillingSession) : Prop :=
  if s.funding.blank = walletOf info then
    s.preConsumedQuota = preConsumedQuota ∨ s.preConsumedQuota = 0 ∧ Trusted cfg r info
  else s.preConsumedQuota = subConsume preConsumedQuota

/-- A session on `funding`, of the right amount, and open where the request id is new and no
wallet is asked for less than nothing. -/
structure OpenedOn (cfg : BillingConfig) (env : SubscriptionEnv) (r : BillingReads)
    (info : RelayInfo) (preConsumedQuota : ℤ) (funding : Funding) (db db' : Db)
    (s : BillingSession) : Prop where
  blank : s.funding.blank = funding
  amount : RightAmount cfg r info preConsumedQuota s
  unpaid : s.preConsumedQuota ≤ 0 → db'.userQuota = db.userQuota
  opened : db.sub.records.find info.requestId = none →
    (funding = walletOf info → 0 ≤ preConsumedQuota ∨ Trusted cfg r info) →
    Opened env info db db' s

theorem tryWallet_allOrNothing : AllOrNothing (Undone (f.increaseToken = none) db)
      (OpenedOn cfg env r info preConsumedQuota (walletOf info) db)
      (tryWallet cfg env r f info preConsumedQuota db) := by
  unfold tryWallet
  split
  · exact Undone.refl _ _
  rename_i userQuota hq
  split
  · exact Undone.refl _ _
  split
  · exact Undone.refl _ _
  refine preConsume_allOrNothing.mono (fun _ h => h) fun db' s ⟨hb, hs, hu, ho⟩ =>
    ⟨hb, ?_, hu, fun _ hp => ho ⟨rfl, ?_⟩⟩
  · rw [RightAmount, if_pos (by exact hb)]
    split_ifs at hs with ht
    · exact .inr ⟨hs, userQuota, hq, ht⟩
    · exact .inl hs
  · rw [hs]
    split_ifs with ht
    · exact le_rfl
    · refine (hp rfl).resolve_right fun ⟨q, hq', ht'⟩ => ht ?_
      rwa [ok.inj (hq.symm.trans hq')]

theorem trySubscription_allOrNothing : AllOrNothing (Undone (f.increaseToken = none) db)
      (OpenedOn cfg env r info preConsumedQuota (subscriptionOf info preConsumedQuota) db)
      (trySubscription cfg env r f info preConsumedQuota db) := by
  refine preConsume_allOrNothing.mono (fun _ h => h) fun db' s ⟨hb, hs, hu, ho⟩ => ?_
  rw [shouldTrust_subscription, if_neg Bool.false_ne_true] at hs
  refine ⟨hb, ?_, hu, fun hr _ => ho ⟨hs.symm, hr⟩⟩
  rw [RightAmount, hb, if_neg (by simp [Funding.blank, walletOf])]
  exact hs

theorem tryTeam_allOrNothing : AllOrNothing (Undone (f.increaseToken = none) db)
      (OpenedOn cfg env r info preConsumedQuota (teamOf info preConsumedQuota) db)
      (tryTeam cfg env r f info preConsumedQuota db) := by
  unfold tryTeam
  split
  · exact Undone.refl _ _
  · exact Undone.refl _ _
  split
  · exact Undone.refl _ _
  refine preConsume_allOrNothing.mono (fun _ h => h) fun db' s ⟨hb, hs, hu, ho⟩ => ?_
  rw [shouldTrust_team, if_neg Bool.false_ne_true] at hs
  refine ⟨hb, ?_, hu, fun hr _ => ho ⟨hs.symm, hr⟩⟩
  rw [RightAmount, hb, if_neg (by simp [Funding.blank, walletOf])]
  exact hs

/-- Which source a request may be charged to. -/
structure Respects (r : BillingReads) (info : RelayInfo) (preConsumedQuota : ℤ)
    (funding : Funding) : Prop where
  team : 0 < info.tokenTeamId → funding = teamOf info preConsumedQuota
  personal : info.tokenTeamId = 0 →
    funding = walletOf info ∨ funding = subscriptionOf info preConsumedQuota
  subscriptionOnly : info.tokenTeamId = 0 → info.billingPreference = .subscriptionOnly →
    funding = subscriptionOf info preConsumedQuota
  walletOnly : info.tokenTeamId = 0 → info.billingPreference = .walletOnly ∨
    info.forceWalletBilling = true ∨ isOutOfPlanGroupModel r info = true →
    funding = walletOf info

end PreConsume

section Open

variable {cfg : BillingConfig} {env : SubscriptionEnv} {r : BillingReads} {f : OpenFaults}
  {info : RelayInfo} {db : Db} {preConsumedQuota : ℤ}

/-- Both attempts can take back the token's charge. -/
def OpenFaults.compensated (f : OpenFaults) : Prop :=
  f.wallet.increaseToken = none ∧ f.subscription.increaseToken = none

/-- A session on a source the request may be charged to, opened where a failed attempt left off. -/
def OpenedFrom (cfg : BillingConfig) (env : SubscriptionEnv) (r : BillingReads) (f : OpenFaults)
    (info : RelayInfo) (preConsumedQuota : ℤ) (db db' : Db) (s : BillingSession) : Prop :=
  ∃ db₁ funding, Undone f.compensated db db₁ ∧ Respects r info preConsumedQuota funding ∧
    OpenedOn cfg env r info preConsumedQuota funding db₁ db' s

theorem newBillingSession_opened :
    AllOrNothing (Undone f.compensated db) (OpenedFrom cfg env r f info preConsumedQuota db)
      (newBillingSession cfg env r f info preConsumedQuota db) := by
  unfold newBillingSession
  split
  · rename_i ht
    refine tryTeam_allOrNothing.mono (fun _ h => h.imp And.right)
      fun db' s ho => ⟨db, _, Undone.refl _ _, ?_, ho⟩
    exact ⟨fun _ => rfl, fun h0 => by omega, fun h0 => by omega, fun h0 => by omega⟩
  rename_i ht
  have wallet : info.billingPreference ≠ .subscriptionOnly → ∀ db₁, Undone f.compensated db db₁ →
      AllOrNothing (Undone f.compensated db) (OpenedFrom cfg env r f info preConsumedQuota db)
        (tryWallet cfg env r f.wallet info preConsumedQuota db₁) := fun hpref db₁ hu =>
    tryWallet_allOrNothing.mono (fun _ h => hu.trans (h.imp And.left)) fun db' s ho =>
      ⟨db₁, _, hu, ⟨fun h0 => absurd h0 ht, fun _ => .inl rfl,
        fun _ hpref' => absurd hpref' hpref, fun _ _ => rfl⟩, ho⟩
  split
  · split
    · exact Undone.refl _ _
    · exact wallet ‹_› db (Undone.refl _ _)
  rename_i hforce
  simp only [Bool.or_eq_true, not_or] at hforce
  have subscription : info.billingPreference ≠ .walletOnly → ∀ db₁, Undone f.compensated db db₁ →
      AllOrNothing (Undone f.compensated db) (OpenedFrom cfg env r f info preConsumedQuota db)
        (trySubscription cfg env r f.subscription info preConsumedQuota db₁) := fun hpref db₁ hu =>
    trySubscription_allOrNothing.mono (fun _ h => hu.trans (h.imp And.right)) fun db' s ho =>
      ⟨db₁, _, hu, ⟨fun h0 => absurd h0 ht, fun _ => .inr rfl, fun _ _ => rfl,
        fun _ h => absurd h (by simp [hpref, hforce])⟩, ho⟩
  split
  · exact subscription (by simp [*]) db (Undone.refl _ _)
  · exact wallet (by simp [*]) db (Undone.refl _ _)
  · exact (wallet (by simp [*]) db (Undone.refl _ _)).orElse (subscription (by simp [*]))
  · split
    · exact Undone.refl _ _
    · exact wallet (by simp [*]) db (Undone.refl _ _)
    · exact (subscription (by simp [*]) db (Undone.refl _ _)).orElse (wallet (by simp [*]))

variable {s : BillingSession}

theorem newBillingSession_ok
    (h : newBillingSession cfg env r f info preConsumedQuota db = some (db', .ok s)) :
    OpenedFrom cfg env r f info preConsumedQuota db db' s := by
  have ho : AllOrNothing _ _ (newBillingSession cfg env r f info preConsumedQuota db) :=
    newBillingSession_opened
  rw [h] at ho
  exact ho

theorem OpenedOn.wallet_of_zero
    (h : OpenedOn cfg env r info preConsumedQuota funding db db' s)
    (h0 : s.preConsumedQuota = 0) :
    s.funding.blank = walletOf info ∧ (preConsumedQuota = 0 ∨ Trusted cfg r info) := by
  have ha := h.amount
  unfold RightAmount at ha
  split_ifs at ha with hw
  · exact ⟨hw, ha.imp (fun he => he.symm.trans h0) And.right⟩
  · have := subConsume_pos preConsumedQuota
    omega

end Open

def noSessionFaults : SessionFaults := ⟨none, none, none, noPreConsumeFaults⟩

def plainConfig : BillingConfig := ⟨0, fun q => toString q⟩

def sampleDb : Db where
  userQuota := fun _ => 5
  tokenRemain := fun _ => 100
  tokenUsed := fun _ => 0
  memberUsed := fun _ => some 0
  sub := sampleSubs

def sampleReads : BillingReads :=
  ⟨.ok 5, .ok 100, .ok true, .ok true, none, none, none, fun _ => true⟩

def sampleRelay : RelayInfo := ⟨7, 3, 0, "req", false, false, false, 100, .walletFirst, false⟩

/-- The amount, its source, and the wallet, the token and the two subscriptions after it. -/
def opening (x : Option (Db × Except ApiError BillingSession)) :
    Option (Option (ℤ × Funding) × ℤ × ℤ × List ℤ) :=
  x.map fun (db, res) => (res.toOption.map fun s => (s.preConsumedQuota, s.funding),
    db.userQuota 7, db.tokenRemain 3, db.sub.subs.rows.map UserSubscription.amountUsed)

/-- The charge before a request is all or nothing. An error leaves everything as it was; a session
has charged its one source and the token the amount it names, which is zero only on the wallet. -/
theorem preCharge_allOrNothing (cfg : BillingConfig) (env : SubscriptionEnv) (r : BillingReads)
    (f : OpenFaults) (info : RelayInfo) (preConsumedQuota : ℤ) (db : Db)
    (hw : f.wallet.increaseToken = none) (hs : f.subscription.increaseToken = none) :
    AllOrNothing (· = db) (fun db' s => Respects r info preConsumedQuota s.funding.blank ∧
        (db.sub.records.find info.requestId = none → 0 ≤ preConsumedQuota →
          s.funding.Charged env db db' s.preConsumedQuota ∧
          TokenCharged info db db' s.preConsumedQuota ∧
          (s.preConsumedQuota = 0 → s.funding.blank = walletOf info ∧
            (preConsumedQuota = 0 ∨ Trusted cfg r info))))
      (newBillingSession cfg env r f info preConsumedQuota db) := by
  refine newBillingSession_opened.mono (fun db' hu => hu.all ⟨hw, hs⟩)
    fun db' s ⟨db₁, funding, hu, hresp, h⟩ => ?_
  obtain rfl := hu.all ⟨hw, hs⟩
  refine ⟨?_, ?_⟩
  · rw [h.blank]
    exact hresp
  · intro hr hp
    have ho := h.opened hr fun _ => .inl hp
    exact ⟨ho.funding, ho.token, h.wallet_of_zero⟩

theorem wallet_first_falls_back :
    opening (newBillingSession plainConfig noonEnv sampleReads ⟨noSessionFaults, noSessionFaults⟩
        sampleRelay 30 sampleDb) =
      some (some (30, .subscription "req" 7 30 1 30), 5, 70, [50, 20]) ∧
    AllOrNothing (· = sampleDb) (fun db' s => Respects sampleReads sampleRelay 30 s.funding.blank ∧
        (sampleDb.sub.records.find sampleRelay.requestId = none → (0 : ℤ) ≤ 30 →
          s.funding.Charged noonEnv sampleDb db' s.preConsumedQuota ∧
          TokenCharged sampleRelay sampleDb db' s.preConsumedQuota ∧
          (s.preConsumedQuota = 0 → s.funding.blank = walletOf sampleRelay ∧
            ((30 : ℤ) = 0 ∨ Trusted plainConfig sampleReads sampleRelay))))
      (newBillingSession plainConfig noonEnv sampleReads ⟨noSessionFaults, noSessionFaults⟩
        sampleRelay 30 sampleDb) :=
  ⟨by decide, preCharge_allOrNothing plainConfig noonEnv sampleReads
    ⟨noSessionFaults, noSessionFaults⟩ sampleRelay 30 sampleDb rfl rfl⟩

/-- A request for nothing charges nothing though nobody is trusted, and a team's token its
subscription though its holder asks for the wallet. -/
theorem untrusted_zero_and_team_wallet_only :
    opening (newBillingSession plainConfig noonEnv sampleReads ⟨noSessionFaults, noSessionFaults⟩
        { sampleRelay with billingPreference := .walletOnly } 0 sampleDb) =
      some (some (0, .wallet 7 0), 5, 100, [20, 20]) ∧
    shouldTrust plainConfig { sampleRelay with billingPreference := .walletOnly } 5
      (.wallet 7 0) = false ∧
    opening (newBillingSession plainConfig noonEnv sampleReads ⟨noSessionFaults, noSessionFaults⟩
        { sampleRelay with billingPreference := .walletOnly, tokenTeamId := 4 } 30 sampleDb) =
      some (some (30, .team "req" 4 30 2 30), 5, 70, [20, 50]) := by
  decide

end AggreApi
