import AggreApi.TopUp

/-!
# What a completion credits

A completed order credits what its rule says of it. The administrator's rule goes by the order's
payment method only, and agrees with the provider's rule under `Provider.manualAgrees`.
-/

namespace AggreApi

theorem intPart_of_nonneg {q : ℚ} (h : 0 ≤ q) : intPart q = ⌊q⌋ := by
  rw [intPart, Rat.floor_def', Int.tdiv_eq_ediv_of_nonneg (Rat.num_nonneg.2 h)]

theorem intPart_nonpos {q : ℚ} (h : q ≤ 0) : intPart q ≤ 0 := by
  have hneg : 0 ≤ (-q.num).tdiv q.den :=
    Int.tdiv_nonneg (neg_nonneg.2 (Rat.num_nonpos.2 h)) (Int.natCast_nonneg _)
  rw [Int.neg_tdiv] at hneg
  exact neg_nonneg.1 hneg

theorem max_intPart (q : ℚ) : max 0 (intPart q) = max 0 ⌊q⌋ := by
  rcases le_total 0 q with h | h
  · rw [intPart_of_nonneg h]
  · have hfloor : ⌊q⌋ ≤ 0 := by
      have := Int.floor_le q
      exact_mod_cast this.trans h
    rw [max_eq_left (intPart_nonpos h), max_eq_left hfloor]

theorem ite_nonpos_eq_max (z : ℤ) : (if (z : ℚ) ≤ 0 then 0 else (z : ℚ)) = (max 0 z : ℤ) := by
  split_ifs with h
  · rw [max_eq_left (by exact_mod_cast h), Int.cast_zero]
  · rw [max_eq_right (by exact_mod_cast (not_le.1 h).le)]

theorem max_floor_eq_iff (q : ℚ) : ((max 0 ⌊q⌋ : ℤ) : ℚ) = q ↔ 0 ≤ q ∧ (⌊q⌋ : ℚ) = q := by
  constructor
  · intro h
    have hq : 0 ≤ q := by
      rw [← h]
      exact_mod_cast le_max_left 0 ⌊q⌋
    rw [max_eq_right (Int.floor_nonneg.2 hq)] at h
    exact ⟨hq, h⟩
  · rintro ⟨hq, h⟩
    rwa [max_eq_right (Int.floor_nonneg.2 hq)]

theorem max_floor_mul_eq_iff (a : ℤ) (q : ℚ) :
    ((max 0 ⌊a * q⌋ : ℤ) : ℚ) = a ↔ 0 ≤ a ∧ (a : ℚ) ≤ a * q ∧ a * q < a + 1 := by
  rw [Int.cast_inj]
  constructor
  · intro h
    have ha : 0 ≤ a := by
      rw [← h]
      exact le_max_left _ _
    rcases ha.eq_or_lt with rfl | hpos
    · simp
    · have hfloor : ⌊a * q⌋ = a := by omega
      exact ⟨ha, Int.floor_eq_iff.1 hfloor⟩
  · rintro ⟨ha, h⟩
    rw [Int.floor_eq_iff.2 h, max_eq_right ha]

variable (quotaPerUnit : ℚ) (rule : RechargeRule)

/-- What completing a pending order adds to the quota of its user. -/
def RechargeRule.paid (quotaPerUnit : ℚ) (topUp : TopUp) : ℚ :=
  if rule.positive ∧ rule.quotaToAdd quotaPerUnit topUp ≤ 0 then 0
  else rule.quotaToAdd quotaPerUnit topUp

section Paid

variable {db : TopUpDb} {topUp : TopUp}

theorem RechargeRule.complete_quota (quotaPerUnit : ℚ) (now : ℤ)
    (hfind : db.topUps.find topUp.tradeNo = some topUp) (hne : topUp.tradeNo ≠ "")
    (hp : topUp.status = .pending) :
    (rule.complete quotaPerUnit db topUp.tradeNo now ⟨false, none⟩).1.quota topUp.userId =
      db.quota topUp.userId + rule.paid quotaPerUnit topUp := by
  unfold RechargeRule.complete RechargeRule.paid
  simp only [if_neg hne, Bool.false_eq_true, if_false, hfind, hp, reduceCtorEq, false_and, ne_eq,
    not_true_eq_false]
  split
  · rw [add_zero]
  · simp [TopUpDb.credit]

theorem rechargeHostedRule_paid (topUp : TopUp) :
    rechargeHostedRule.paid quotaPerUnit topUp = (max 0 ⌊topUp.amount * quotaPerUnit⌋ : ℤ) := by
  rw [← max_intPart, ← ite_nonpos_eq_max]
  simp [RechargeRule.paid, rechargeHostedRule, amountQuota]

theorem manualCompleteRule_paid (topUp : TopUp) :
    manualCompleteRule.paid quotaPerUnit topUp =
      if topUp.paymentMethod = "stripe" then ((max 0 ⌊topUp.money * quotaPerUnit⌋ : ℤ) : ℚ)
      else rechargeHostedRule.paid quotaPerUnit topUp := by
  rw [← max_intPart (topUp.money * quotaPerUnit), ← ite_nonpos_eq_max]
  simp only [RechargeRule.paid, manualCompleteRule, rechargeHostedRule, true_and]
  split_ifs <;> simp_all

theorem epayNotify_quota (now : ℤ) (hfind : db.topUps.find topUp.tradeNo = some topUp)
    (hp : topUp.status = .pending) :
    (epayNotify quotaPerUnit db topUp.tradeNo now ⟨false, false, false⟩).quota topUp.userId =
      db.quota topUp.userId + rechargeHostedRule.paid quotaPerUnit topUp := by
  unfold epayNotify
  simp only [Bool.false_eq_true, if_false, hfind, hp, ne_eq, not_true_eq_false, or_false]
  simp only [RechargeRule.paid, rechargeHostedRule, true_and]
  rcases lt_trichotomy (amountQuota quotaPerUnit topUp) 0 with h | h | h
  · rw [if_pos h, if_pos h.le, add_zero]
  · rw [if_neg h.not_lt, if_pos h.le, h]
    simp [TopUpDb.credit]
  · rw [if_neg h.not_gt, if_neg h.not_ge]
    simp [TopUpDb.credit]

end Paid

theorem append_ne_empty {tag : String} (h : tag ≠ "") (s : String) : tag ++ s ≠ "" := by
  intro he
  exact h (String.append_eq_empty_iff.1 he).1

/-- A new order is pending, has a number, and names the payment method `m`. -/
structure TopUp.Fresh (topUp : TopUp) (m : String) : Prop where
  pending : topUp.status = .pending
  tradeNo : topUp.tradeNo ≠ ""
  method : topUp.paymentMethod = m

section Requests

variable {s : PaySettings} {req : PayRequest} {topUp : TopUp}

theorem requestHostedPay_fresh {p : PayProvider} {supported : Bool} (htag : p.tradeTag ≠ "")
    (h : requestHostedPay p supported s req = .ok topUp) : topUp.Fresh p.paymentMethod := by
  unfold requestHostedPay at h
  dsimp only at h
  split_ifs at h
  cases h
  exact ⟨rfl, append_ne_empty htag _, rfl⟩

theorem requestEpay_fresh {price : ℚ} {payMethods : List String} {paymentMethod : String}
    (h : requestEpay price payMethods paymentMethod s req = .ok topUp) :
    topUp.Fresh paymentMethod := by
  unfold requestEpay at h
  dsimp only at h
  split_ifs at h <;>
  · cases h
    exact ⟨rfl, append_ne_empty (by decide) _, rfl⟩

theorem requestStripePay_fresh {stripeMin : ℤ} {paymentMethod : String}
    (h : requestStripePay stripeMin paymentMethod s req = .ok topUp) : topUp.Fresh "stripe" := by
  unfold requestStripePay at h
  dsimp only at h
  split_ifs at h
  cases h
  exact ⟨rfl, append_ne_empty (by decide) _, rfl⟩

theorem requestCreemPay_fresh {products : List CreemProduct} {paymentMethod productId : String}
    (h : requestCreemPay products paymentMethod productId req = .ok topUp) : topUp.Fresh "" := by
  unfold requestCreemPay at h
  split_ifs at h
  split at h
  · cases h
  · cases h
    exact ⟨rfl, append_ne_empty (by decide) _, rfl⟩

theorem RequestedBy.fresh {p : Provider} (h : RequestedBy s p topUp) :
    ∃ m, topUp.Fresh m ∧ (p = .stripe → m = "stripe") ∧ (m = "stripe" → p = .stripe ∨ p = .epay)
    := by
  cases h with
  | stripe h => exact ⟨_, requestStripePay_fresh h, fun _ => rfl, fun _ => .inl rfl⟩
  | creem h => exact ⟨_, requestCreemPay_fresh h, by simp, by simp⟩
  | waffo h | waffoPancake h | cryptomus h | nowPayments h | dodoPayments h =>
    exact ⟨_, requestHostedPay_fresh (by simp) h, by simp, by simp⟩
  | epay h => exact ⟨_, requestEpay_fresh h, by simp, fun _ => .inr rfl⟩

end Requests

/-- What the provider's own completion adds to the quota of the user. -/
def Provider.paid (p : Provider) (quotaPerUnit : ℚ) (topUp : TopUp) : ℚ :=
  match p with
  | .stripe => topUp.money * quotaPerUnit
  | .creem => topUp.amount
  | _ => rechargeHostedRule.paid quotaPerUnit topUp

section Manual

variable {s : PaySettings} {p : Provider} {topUp : TopUp} {db : TopUpDb}

theorem Provider.complete_quota (p : Provider) (quotaPerUnit : ℚ) (now : ℤ)
    (hfind : db.topUps.find topUp.tradeNo = some topUp) (hne : topUp.tradeNo ≠ "")
    (hp : topUp.status = .pending) :
    (p.complete quotaPerUnit db topUp.tradeNo now).quota topUp.userId =
      db.quota topUp.userId + p.paid quotaPerUnit topUp := by
  have hrule := fun rule : RechargeRule => rule.complete_quota quotaPerUnit now hfind hne hp
  cases p
  case stripe => exact (hrule rechargeRule).trans (by simp [RechargeRule.paid, rechargeRule, paid])
  case creem =>
    exact (hrule rechargeCreemRule).trans (by simp [RechargeRule.paid, rechargeCreemRule, paid])
  case epay => exact epayNotify_quota quotaPerUnit now hfind hp
  all_goals exact hrule rechargeHostedRule

theorem Provider.manual_paid_iff (hreq : RequestedBy s p topUp) (quotaPerUnit : ℚ) :
    manualCompleteRule.paid quotaPerUnit topUp = p.paid quotaPerUnit topUp ↔
      p.manualAgrees quotaPerUnit topUp := by
  obtain ⟨m, hfresh, hstripe, hm⟩ := hreq.fresh
  rw [manualCompleteRule_paid, hfresh.method]
  cases p
  case stripe => simp only [hstripe rfl, if_true, paid, manualAgrees, max_floor_eq_iff]
  case creem =>
    have hne : m ≠ "stripe" := fun h => by simpa using hm h
    rw [if_neg hne, rechargeHostedRule_paid]
    simp only [paid, manualAgrees, max_floor_mul_eq_iff]
  case epay =>
    by_cases h : m = "stripe"
    · simp only [h, if_true, paid, rechargeHostedRule_paid, manualAgrees, hfresh.method,
        true_implies, Int.cast_inj]
    · simp [paid, manualAgrees, hfresh.method, h]
  all_goals
    have hne : m ≠ "stripe" := fun h => by simpa using hm h
    simp only [if_neg hne, paid, manualAgrees]

/-- The administrator's completion of an order adds to the user's quota what the provider's own
would exactly where `Provider.manualAgrees` says. -/
theorem manual_credits_what_provider_would_iff (hreq : RequestedBy s p topUp)
    (hfind : db.topUps.find topUp.tradeNo = some topUp) (quotaPerUnit : ℚ) (now : ℤ) :
    (manualCompleteTopUp quotaPerUnit db topUp.tradeNo now ⟨false, none⟩).1.quota topUp.userId -
        db.quota topUp.userId =
      (p.complete quotaPerUnit db topUp.tradeNo now).quota topUp.userId - db.quota topUp.userId ↔
    p.manualAgrees quotaPerUnit topUp := by
  obtain ⟨m, hfresh, -⟩ := hreq.fresh
  rw [manualCompleteTopUp,
    manualCompleteRule.complete_quota quotaPerUnit now hfind hfresh.tradeNo hfresh.pending,
    p.complete_quota quotaPerUnit now hfind hfresh.tradeNo hfresh.pending, add_sub_cancel_left,
    add_sub_cancel_left, Provider.manual_paid_iff hreq]

end Manual

def sampleSettings : PaySettings := ⟨500000, false, 1, 0, fun _ => none⟩

def stripeOrder : TopUp := ⟨1, 10, 10, "ref_s", "stripe", 0, 0, .pending⟩

theorem stripeOrder_requested : RequestedBy sampleSettings .stripe stripeOrder := by
  have h : requestStripePay 1 "stripe" sampleSettings ⟨1, false, 10, "s", 0⟩ = .ok stripeOrder := by
    simp [requestStripePay, sampleSettings, PaySettings.groupRatio, stripeOrder]
  exact .stripe h

def creemOrder : TopUp := ⟨1, 500000, 5, "ref_c", "", 0, 0, .pending⟩

theorem creemOrder_requested : RequestedBy sampleSettings .creem creemOrder := by
  have h : requestCreemPay [⟨"p", 5, 500000⟩] "creem" "p" ⟨1, false, 0, "c", 0⟩ =
      .ok creemOrder := by
    simp [requestCreemPay, creemOrder]
  exact .creem h

def sampleTopUps : TopUpDb :=
  ⟨⟨[stripeOrder, creemOrder], by simp [stripeOrder, creemOrder]⟩, ⟨[], List.nodup_nil⟩,
    fun _ => 0, []⟩

theorem stripeOrder_completed_by_hand :
    (manualCompleteTopUp 500000 sampleTopUps "ref_s" 7 ⟨false, none⟩).1.quota 1 -
        sampleTopUps.quota 1 =
      (Provider.stripe.complete 500000 sampleTopUps "ref_s" 7).quota 1 - sampleTopUps.quota 1 :=
  (manual_credits_what_provider_would_iff stripeOrder_requested rfl 500000 7).2
    ⟨by norm_num [stripeOrder], by norm_num [stripeOrder]⟩

/-- The quota of a Creem product is taken for an amount of money. -/
theorem creemOrder_multiplied_by_hand : RequestedBy sampleSettings .creem creemOrder ∧
    sampleTopUps.topUps.find "ref_c" = some creemOrder ∧
    (manualCompleteTopUp 500000 sampleTopUps "ref_c" 7 ⟨false, none⟩).1.quota 1 = 250000000000 ∧
    (Provider.creem.complete 500000 sampleTopUps "ref_c" 7).quota 1 = 500000 :=
  ⟨creemOrder_requested, rfl, by decide +kernel, by decide +kernel⟩

end AggreApi
