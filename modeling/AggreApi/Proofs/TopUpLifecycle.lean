import AggreApi.TopUpWebhook

/-!
# The life of a top-up order

Each handler is shown to keep successful orders successful, and to credit successful ones only, as
one relation between the database before and after it.
-/

namespace AggreApi

open RechargeRule

variable {db' : TopUpDb} {topUp : TopUp}

namespace TopUpDb

/-- What is successful stays so, and what is newly credited belongs to a successful order. -/
structure Keeps (db db' : TopUpDb) : Prop where
  success : ∀ t, db.statusOf t = some .success → db'.statusOf t = some .success
  credited : ∀ c ∈ db'.credits, c ∈ db.credits ∨ db'.statusOf c.1 = some .success

theorem Keeps.refl (db : TopUpDb) : db.Keeps db := ⟨fun _ h => h, fun _ h => .inl h⟩

variable {db : TopUpDb}

theorem Keeps.of_topUps (h : db'.topUps = db.topUps)
    (hc : db'.credits = db.credits) : db.Keeps db' :=
  ⟨fun t ht => by rwa [statusOf, h], fun c hmem => .inl (hc ▸ hmem)⟩

theorem statusOf_put {r : TopUp} (h : db'.topUps = db.topUps.put topUp)
    (hfind : db.topUps.find topUp.tradeNo = some r) (t : String) :
    db'.statusOf t = if t = topUp.tradeNo then some topUp.status else db.statusOf t := by
  split_ifs with ht
  · have hput : (db.topUps.put topUp).find topUp.tradeNo = some topUp := Table.find_put_self hfind
    rw [statusOf, h, ht, hput, Option.map_some]
  · rw [statusOf, h, Table.find_put_of_ne db.topUps ht, statusOf]

theorem Keeps.of_put {r : TopUp} (h : db'.topUps = db.topUps.put topUp)
    (hfind : db.topUps.find topUp.tradeNo = some r)
    (hr : r.status = .success → topUp.status = .success)
    (hc : ∀ c ∈ db'.credits, c ∈ db.credits ∨ c.1 = topUp.tradeNo ∧ topUp.status = .success) :
    db.Keeps db' := by
  constructor
  · intro t ht
    rw [statusOf_put h hfind]
    split_ifs with hk
    · rw [hk, statusOf, hfind] at ht
      rw [hr (Option.some.inj ht)]
    · exact ht
  · intro c hmem
    rcases hc c hmem with hold | ⟨hk, hs⟩
    · exact .inl hold
    · rw [statusOf_put h hfind, if_pos hk, hs]
      exact .inr rfl

theorem Keeps.of_insert (h : db'.topUps = db.topUps.insert topUp)
    (hc : db'.credits = db.credits) : db.Keeps db' := by
  refine ⟨fun t ht => ?_, fun c hmem => .inl (hc ▸ hmem)⟩
  obtain ⟨r, hr, hs⟩ := Option.map_eq_some_iff.1 ht
  rw [statusOf, h, Table.find_insert_of_some hr, Option.map_some, hs]

theorem Keeps.of_saved {tradeNo : String} {saved : TopUp}
    (hfind : db.topUps.find tradeNo = some topUp) (h : db'.topUps = db.topUps.put saved)
    (hkey : saved.tradeNo = topUp.tradeNo) (hr : topUp.status = .success → saved.status = .success)
    (hc : ∀ c ∈ db'.credits, c ∈ db.credits ∨ c.1 = tradeNo ∧ saved.status = .success) :
    db.Keeps db' := by
  have hsaved : saved.tradeNo = tradeNo := hkey.trans (Table.key_of_find hfind)
  exact .of_put h (by rw [hsaved, hfind]) hr (by rw [hsaved]; exact hc)

end TopUpDb

theorem eq_some_of_read {α : Type*} {b : Bool} {o : Option α} {a : α}
    (h : (if b then none else o) = some a) : o = some a := by
  cases b
  · exact h
  · cases h

open TopUpDb

section Completions

variable (quotaPerUnit : ℚ) (db : TopUpDb) (tradeNo : String) (now : ℤ)

theorem RechargeRule.complete_keeps (rule : RechargeRule) (f : RechargeFaults) :
    db.Keeps (rule.complete quotaPerUnit db tradeNo now f).1 := by
  unfold complete
  dsimp only
  split
  · exact .refl db
  split
  · exact .refl db
  rename_i topUp hread
  split
  · exact .refl db
  split
  · exact .refl db
  split
  · exact .refl db
  split
  · exact .refl db
  refine .of_saved (eq_some_of_read hread) rfl rfl (fun _ => rfl) ?_
  intro c hc
  rcases List.mem_cons.1 hc with rfl | hold
  · exact .inr ⟨rfl, rfl⟩
  · exact .inl hold

theorem epayNotify_keeps (f : EpayFaults) :
    db.Keeps (epayNotify quotaPerUnit db tradeNo now f) := by
  unfold epayNotify
  split
  · exact .refl db
  rename_i topUp hread
  have hfind := eq_some_of_read hread
  split
  · exact .refl db
  dsimp only
  split
  · exact .of_saved hfind rfl rfl (fun _ => rfl) fun c hc => .inl hc
  refine .of_saved hfind rfl rfl (fun _ => rfl) ?_
  intro c hc
  rcases List.mem_cons.1 hc with rfl | hold
  · exact .inr ⟨rfl, rfl⟩
  · exact .inl hold

theorem completeSubscriptionOrder_keeps (f : RechargeFaults) :
    db.Keeps (completeSubscriptionOrder db tradeNo now f).1 := by
  unfold completeSubscriptionOrder
  dsimp only
  split
  · exact .refl db
  split
  · exact .refl db
  rename_i order hread
  split
  · exact .refl db
  split
  · exact .refl db
  split
  · exact .refl db
  dsimp only [upsertSubscriptionTopUp]
  rcases htop : db.topUps.find order.tradeNo with _ | topUp
  · exact .of_insert rfl rfl
  · exact .of_saved htop rfl rfl (fun _ => rfl) fun c hc => .inl hc

theorem expireSubscriptionOrder_keeps (f : RechargeFaults) :
    db.Keeps (expireSubscriptionOrder db tradeNo now f).1 := by
  unfold expireSubscriptionOrder
  dsimp only
  split
  · exact .refl db
  split
  · exact .refl db
  split
  · exact .refl db
  split
  · exact .refl db
  · exact .of_topUps rfl rfl

end Completions

section Notifications

variable (quotaPerUnit : ℚ) (db : TopUpDb) (now : ℤ) (f : WebhookFaults)

theorem updateStatus_keeps {tradeNo : String}
    (hfind : db.topUps.find tradeNo = some topUp) (hne : topUp.status ≠ .success)
    (status : TopUpStatus) : db.Keeps (db.updateStatus f topUp status) := by
  unfold updateStatus
  split
  · exact .refl db
  · exact .of_saved hfind rfl rfl (fun h => absurd h hne) fun c hc => .inl hc

theorem failPending_keeps (tradeNo : String) : db.Keeps (db.failPending f tradeNo) := by
  unfold failPending
  split
  · exact .refl db
  rename_i topUp hread
  split
  · rename_i hp
    exact updateStatus_keeps db f (eq_some_of_read hread) (by simp [hp]) .failed
  · exact .refl db

theorem sessionCompleted_keeps (status referenceId : String) :
    db.Keeps (sessionCompleted quotaPerUnit db status referenceId now f) := by
  unfold sessionCompleted
  split
  · exact .refl db
  split
  · rename_i completed hcomplete
    have h := completeSubscriptionOrder_keeps db referenceId now f.order
    rwa [hcomplete] at h
  · exact .refl db
  · exact complete_keeps ..

theorem sessionExpired_keeps {status referenceId : String}
    (hne : db.statusOf referenceId ≠ some .success) :
    db.Keeps (sessionExpired db status referenceId now f) := by
  unfold sessionExpired
  split
  · exact .refl db
  split
  · exact .refl db
  split
  · rename_i expired hexpire
    have h := expireSubscriptionOrder_keeps db referenceId now f.order
    rwa [hexpire] at h
  · exact .refl db
  split
  · exact .refl db
  rename_i topUp hread
  have hfind := eq_some_of_read hread
  refine updateStatus_keeps db f hfind (fun hs => hne ?_) .expired
  rw [statusOf, hfind, Option.map_some, hs]

theorem handleCheckoutCompleted_keeps (orderStatus requestId orderType : String) :
    db.Keeps (handleCheckoutCompleted quotaPerUnit db orderStatus requestId orderType now f) := by
  unfold handleCheckoutCompleted
  split
  · exact .refl db
  split
  · exact .refl db
  split
  · rename_i completed hcomplete
    have h := completeSubscriptionOrder_keeps db requestId now f.order
    rwa [hcomplete] at h
  · exact .refl db
  split
  · exact .refl db
  split
  · exact .refl db
  split
  · exact .refl db
  · exact complete_keeps ..

theorem handleWaffoPayment_keeps (orderStatus merchantOrderId : String) :
    db.Keeps (handleWaffoPayment quotaPerUnit db orderStatus merchantOrderId now f) := by
  unfold handleWaffoPayment
  split
  · split
    · exact .refl db
    · exact failPending_keeps db f merchantOrderId
  · exact complete_keeps ..

theorem cryptomusWebhook_keeps (orderId status : String) (isFinal : Bool) (merchantAmount : ℚ) :
    db.Keeps (cryptomusWebhook quotaPerUnit db orderId status isFinal merchantAmount now f) := by
  unfold cryptomusWebhook
  split
  · exact .refl db
  split
  · exact .refl db
  split
  · exact .refl db
  split
  · split
    · exact failPending_keeps db f orderId
    · exact .refl db
  split
  · exact .refl db
  · exact complete_keeps ..

theorem nowPaymentsWebhook_keeps (ipn : NowPaymentsIpn) :
    db.Keeps (nowPaymentsWebhook quotaPerUnit db ipn now f) := by
  unfold nowPaymentsWebhook nowPaymentsHandleSubscriptionWebhook nowPaymentsHandleTopUpWebhook
  split
  · exact .refl db
  split
  · split
    · exact .refl db
    split_ifs
    · exact .refl db
    · exact .refl db
    · exact completeSubscriptionOrder_keeps ..
    · exact expireSubscriptionOrder_keeps ..
    · exact .refl db
  · split
    · exact .refl db
    split_ifs
    · exact .refl db
    · exact .refl db
    · exact complete_keeps ..
    · exact failPending_keeps ..
    · exact .refl db

theorem dodoHandlePaymentSucceeded_keeps (tradeNo : String) :
    db.Keeps (dodoHandlePaymentSucceeded quotaPerUnit db tradeNo now f) := by
  unfold dodoHandlePaymentSucceeded
  split
  · exact .refl db
  split
  · exact .refl db
  split
  · exact .refl db
  split
  · exact .refl db
  · exact complete_keeps ..

theorem dodoHandlePaymentFailed_keeps (tradeNo : String) :
    db.Keeps (dodoHandlePaymentFailed db tradeNo now f) := by
  unfold dodoHandlePaymentFailed
  split_ifs
  · exact .refl db
  · exact failPending_keeps db f tradeNo
  · exact expireSubscriptionOrder_keeps ..
  · exact .refl db

theorem dodoHandleSubscriptionActive_keeps (tradeNo : String) :
    db.Keeps (dodoHandleSubscriptionActive db tradeNo now f) := by
  unfold dodoHandleSubscriptionActive
  split
  · exact .refl db
  split
  · exact .refl db
  split
  · exact .refl db
  · exact completeSubscriptionOrder_keeps ..

theorem dodoPaymentsWebhook_keeps (type tradeNo : String) :
    db.Keeps (dodoPaymentsWebhook quotaPerUnit db type tradeNo now f) := by
  unfold dodoPaymentsWebhook dodoHandleSubscriptionFailed
  split_ifs
  · exact dodoHandlePaymentSucceeded_keeps ..
  · exact dodoHandlePaymentFailed_keeps ..
  · exact dodoHandleSubscriptionActive_keeps ..
  · exact .refl db
  · exact expireSubscriptionOrder_keeps ..
  · exact .refl db

end Notifications

namespace TopUpDb

theorem step_keeps (db : TopUpDb) (e : PaymentEvent) (he : db.careful e = true) :
    db.Keeps (db.step e) := by
  rcases e with ⟨notice, quotaPerUnit, now, f, increase⟩
  cases notice with
  | created => exact .of_insert rfl rfl
  | ordered => exact .of_topUps rfl rfl
  | stripeCompleted status id => exact sessionCompleted_keeps quotaPerUnit db now f status id
  | stripeExpired => exact sessionExpired_keeps db now f (of_decide_eq_true he)
  | creem status id type => exact handleCheckoutCompleted_keeps quotaPerUnit db now f status id type
  | waffo status id => exact handleWaffoPayment_keeps quotaPerUnit db now f status id
  | waffoPancake =>
    dsimp only [step, handleWaffoPancakeOrderCompleted]
    split
    · exact .refl db
    · exact complete_keeps ..
  | cryptomus id status isFinal amount =>
    exact cryptomusWebhook_keeps quotaPerUnit db now f id status isFinal amount
  | nowPayments ipn => exact nowPaymentsWebhook_keeps quotaPerUnit db now f ipn
  | dodo type id => exact dodoPaymentsWebhook_keeps quotaPerUnit db now f type id
  | epay => exact epayNotify_keeps ..
  | manual => exact complete_keeps ..

/-- Whatever has been credited was credited for an order that is successful. -/
def Accounted (db : TopUpDb) : Prop := ∀ c ∈ db.credits, db.statusOf c.1 = some .success

theorem Keeps.accounted {db : TopUpDb} (h : db.Keeps db') (hdb : db.Accounted) : db'.Accounted := by
  intro c hc
  rcases h.credited c hc with hold | hnew
  · exact h.success c.1 (hdb c hold)
  · exact hnew

variable (topUps : Table TopUp.tradeNo) (orders : Table SubscriptionOrder.tradeNo)
  (quota : ℕ → ℚ)

/-- While no session expires after its order succeeded, a successful order stays so, and no other
has been credited. -/
theorem success_is_terminal (es : List PaymentEvent)
    (hes : Along step (fun db e => db.careful e = true) (init topUps orders quota) es)
    (tradeNo : String) :
    (∀ pre post, es = pre ++ post →
      (run step (init topUps orders quota) pre).statusOf tradeNo = some .success →
      (run step (init topUps orders quota) es).statusOf tradeNo = some .success) ∧
    ((run step (init topUps orders quota) es).statusOf tradeNo ≠ some .success →
      ∀ c ∈ (run step (init topUps orders quota) es).credits, c.1 ≠ tradeNo) := by
  constructor
  · rintro pre post rfl hpre
    rw [run_append]
    exact Along.run_inv (I := fun db => db.statusOf tradeNo = some .success)
      (fun db e h he => (step_keeps db e he).success tradeNo h) hpre (along_append.1 hes).2
  · rintro hne c hc rfl
    have hinit : (init topUps orders quota).Accounted := by
      intro c hc
      cases hc
    exact hne (Along.run_inv (fun db e h he => (step_keeps db e he).accounted h) hinit hes c hc)

end TopUpDb

def noWebhookFaults : WebhookFaults := ⟨⟨false, none⟩, false, ⟨false, none⟩, false⟩

def PaymentNotice.handled (notice : PaymentNotice) (now : ℤ) : PaymentEvent :=
  ⟨notice, 500000, now, noWebhookFaults, false⟩

def stripeTopUp : TopUp := ⟨1, 10, 10, "ref_s", "stripe", 0, 0, .pending⟩

def noTopUps : TopUpDb :=
  .init ⟨[], List.nodup_nil⟩ ⟨[], List.nodup_nil⟩ fun _ => 0

def completedByHand : List PaymentEvent :=
  [PaymentNotice.handled (.created stripeTopUp false) 1,
    PaymentNotice.handled (.manual "ref_s") 2]

def completedThenPaid : List PaymentEvent :=
  completedByHand ++ [PaymentNotice.handled (.stripeCompleted "complete" "ref_s") 3]

def completedThenExpired : List PaymentEvent :=
  completedByHand ++ [PaymentNotice.handled (.stripeExpired "expired" "ref_s") 3]

theorem completedThenPaid_stays_successful :
    Along TopUpDb.step (fun db e => db.careful e = true) noTopUps completedThenPaid ∧
    (run TopUpDb.step noTopUps completedThenPaid).statusOf "ref_s" = some .success :=
  ⟨by decide,
    (TopUpDb.success_is_terminal _ _ _ completedThenPaid (by decide) "ref_s").1
      completedByHand _ rfl (by decide +kernel)⟩

/-- The order has been completed and credited when its session is reported expired. -/
theorem credited_order_expires :
    (run TopUpDb.step noTopUps completedByHand).statusOf "ref_s" = some .success ∧
    (run TopUpDb.step noTopUps completedThenExpired).statusOf "ref_s" = some .expired ∧
    (run TopUpDb.step noTopUps completedThenExpired).credits = [("ref_s", 5000000)] := by
  decide +kernel

end AggreApi
