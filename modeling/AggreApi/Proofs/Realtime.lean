import AggreApi.Proofs.BillingLedger
import AggreApi.Proofs.TextCharge
import AggreApi.Realtime

/-!
# What a realtime session is charged

Every usage event moves the funding source by its own quota, so that the net debit of a session that
ends well is the sum of the events' quotas and what the session was opened with.
-/

namespace AggreApi

variable {cfg : BillingConfig} {s : AudioSetting} {rt : RealtimeInfo} {info : RelayInfo}
  {db db' : Db} {quota : ℤ}

theorem calculateAudioQuota_nonneg (modelName : String) (modelRatio groupRatio : ℚ)
    (usage : RealtimeUsage) : 0 ≤ calculateAudioQuota s modelName modelRatio groupRatio usage := by
  refine roundHalfAway_nonneg ?_
  split_ifs with h
  · exact zero_le_one
  · by_cases hratio : groupRatio * modelRatio = 0
    · rw [hratio, mul_zero]
    · exact (not_le.1 fun hle => h ⟨hratio, hle⟩).le

def RealtimeInfo.due (s : AudioSetting) (rt : RealtimeInfo) (e : WssEvent) : ℤ :=
  if rt.usePrice then 0 else rt.quota s e.usage

def Funding.OwnedBy (info : RelayInfo) (funding : Funding) : Prop :=
  ∀ userId consumed, funding = .wallet userId consumed → userId = info.userId

variable {session : BillingSession} {f : SettleFaults}

theorem postConsumeQuota_moved (hown : session.funding.OwnedBy info) (hq : 0 ≤ quota)
    (hc : db.covers 0 session.funding.account = true)
    (h : postConsumeQuota info f (syncRelayInfo (some session)).billingSource
      (syncRelayInfo (some session)).subscriptionId quota db = (db', .ok ())) :
    db'.spent session.funding.account = db.spent session.funding.account + quota := by
  have hsub : ∀ {id : ℕ} {db₁ : Db}, db.covers 0 (.subscription id) = true →
      (if id = 0 then Except.error "subscription id is missing" else if quota = 0 then .ok db
        else Funding.adjustSub db id quota f.funding) = .ok db₁ →
      Db.Moved (.subscription id) quota db db₁ := by
    intro id db₁ hc hfund
    split_ifs at hfund with h0 hz
    · cases hfund
      exact hz ▸ Db.Moved.refl _ _
    · exact Db.adjustSub_ok hz (SessionRun.covers_mono hc (by omega)) hfund
  unfold postConsumeQuota at h
  dsimp only at h
  split at h
  · cases congrArg Prod.snd h
  rename_i db₁ hfund
  have hmoved : Db.Moved session.funding.account quota db db₁ := by
    obtain ⟨funding, _, _, _, _, _⟩ := session
    cases funding with
    | wallet userId consumed =>
      obtain rfl := hown userId consumed rfl
      exact Db.adjustUserQuota_ok hfund
    | subscription requestId userId own id pre | team requestId teamId own id pre =>
      exact hsub hc hfund
  have hdb : db' = db₁ ∨ db' = db₁.chargeToken info.tokenId quota := by
    split_ifs at h
    · exact .inl (congrArg Prod.fst h).symm
    · rcases htoken : db₁.adjustTokenQuota info.tokenId quota f.token with err | db₂ <;>
        rw [htoken] at h
      · cases congrArg Prod.snd h
      · exact .inr ((congrArg Prod.fst h).symm.trans (Db.adjustTokenQuota_ok htoken))
  rcases hdb with rfl | rfl
  · exact hmoved.spent
  · rw [Db.chargeToken_spent]
    exact hmoved.spent

namespace SessionRun

variable {r : SessionRun} {e : WssEvent}

theorem serve_net (hown : r.session.funding.OwnedBy info) (h : r.served cfg s rt info e) :
    (r.serve cfg s rt info e).fundingNet = r.fundingNet + rt.due s e := by
  obtain ⟨hc, hok⟩ := h
  have hspent : (r.preWss cfg s rt info e).1.spent r.account =
      (e.others r.db).spent r.account + rt.due s e := by
    unfold preWss preWssConsumeQuota RealtimeInfo.due at *
    split_ifs at hok ⊢
    · exact (add_zero _).symm
    · rcases hquota : e.userQuota with err | userQuota <;> simp only [hquota] at hok ⊢
      · cases hok
      rcases htoken : e.token with err | ⟨unlimited, remain⟩ <;> simp only [htoken] at hok ⊢
      · cases hok
      split_ifs at hok ⊢
      exact postConsumeQuota_moved hown (calculateAudioQuota_nonneg _ _ _ _) hc
        (Prod.ext rfl hok)
  show r.fundingNet + ((r.preWss cfg s rt info e).1.spent r.account -
    (e.others r.db).spent r.account) = _
  rw [hspent]
  omega

theorem serve_run : ∀ (events : List WssEvent) {r : SessionRun},
    r.session.funding.OwnedBy info →
    Along (serve cfg s rt info) (served cfg s rt info) r events →
    (run (serve cfg s rt info) r events).fundingNet =
      r.fundingNet + (events.map (rt.due s)).sum
  | [], r, _, _ => (add_zero _).symm
  | e :: events, r, hown, ⟨h, hs⟩ => by
    rw [run_cons, serve_run events (r := r.serve cfg s rt info e) hown hs, serve_net hown h,
      List.map_cons, List.sum_cons, add_assoc]

theorem ownedBy_of_respects {reads : BillingReads} {p : ℤ} {funding : Funding}
    (hr : Respects reads info p funding.blank) : funding.OwnedBy info := by
  rintro userId consumed rfl
  rcases Nat.eq_zero_or_pos info.tokenTeamId with h0 | hpos
  · rcases hr.personal h0 with h | h
    · exact (Funding.wallet.inj h).1
    · cases h
  · cases hr.team hpos

/-- The net debit of a realtime request that ends well is the sum of its events' quotas exactly when
its session was opened without a charge. -/
theorem realtime_exact_iff (cfg : BillingConfig) (env : SubscriptionEnv) (reads : BillingReads)
    (f : OpenFaults) (info : RelayInfo) (preConsumedQuota : ℤ) (before after : Db)
    (session : BillingSession) (s : AudioSetting) (rt : RealtimeInfo) (events : List WssEvent)
    (hopen : newBillingSession cfg env reads f info preConsumedQuota before =
      some (after, .ok session))
    (hfresh : before.sub.records.find info.requestId = none)
    (hserved : Along (serve cfg s rt info) (served cfg s rt info)
      (start env info before after session) events) :
    ((relayRealtime cfg s rt info (start env info before after session) (some events)).fundingNet =
      (events.map (rt.due s)).sum ↔ session.preConsumedQuota ≤ 0) ∧
    (session.preConsumedQuota ≤ 0 → session.funding.blank = walletOf info ∧
      (preConsumedQuota ≤ 0 ∨ Trusted cfg reads info)) := by
  obtain ⟨db₁, funding, hu, hr, ho⟩ := newBillingSession_ok hopen
  obtain rfl := ho.blank
  have hrun := serve_run events (r := start env info before after session)
    (ownedBy_of_respects hr) hserved
  have hnet : (start env info before after session).fundingNet = 0 ↔
      session.preConsumedQuota ≤ 0 := by
    by_cases hask : session.funding.blank = walletOf info →
        0 ≤ preConsumedQuota ∨ Trusted cfg reads info
    · have hopened := ho.opened (hu.sub ▸ hfresh) hask
      have hspent := charged_net hopened.funding
      rw [dueSpent_congr hu.userQuota hu.sub] at hspent
      have hnonneg := hopened.nonneg
      simp only [start, hspent]
      omega
    · push Not at hask
      obtain ⟨hwallet, hneg, htrust⟩ := hask
      have hamount := ho.amount
      rw [RightAmount, if_pos hwallet] at hamount
      have hp : session.preConsumedQuota = preConsumedQuota :=
        hamount.resolve_right fun ht => htrust ht.2
      refine iff_of_true ?_ (by omega)
      obtain ⟨userId, hacc⟩ : ∃ userId, session.funding.account = .wallet userId := by
        cases hf : session.funding <;> rw [hf] at hwallet
        · exact ⟨_, rfl⟩
        · cases hwallet
        · cases hwallet
      simp [start, hacc, Db.spent, Db.dueSpent, ho.unpaid (by omega), hu.userQuota]
  refine ⟨?_, fun hp => ?_⟩
  · rw [← hnet, relayRealtime, hrun]
    omega
  · have hamount := ho.amount
    unfold RightAmount at hamount
    split_ifs at hamount with hwallet
    · exact ⟨hwallet, hamount.imp (fun h => h.symm.trans_le hp) And.right⟩
    · have := subConsume_pos preConsumedQuota
      omega

def plainAudio : AudioSetting := ⟨fun _ => 1, fun _ => 2, fun _ => 4, fun _ => 2, {}⟩

def voiceInfo : RealtimeInfo := ⟨false, "gpt-4o-realtime", "default", "default", none⟩

def voiceEvent : WssEvent := ⟨⟨2, 1, 1, 0⟩, .ok 97, .ok (false, 97), ⟨none, none, none⟩, id⟩

theorem realtime_exact_iff_sample :
    newBillingSession plainConfig noonEnv sampleReads ⟨noSessionFaults, noSessionFaults⟩
        walletRelay 0 sampleDb =
      some (sampleDb, .ok ⟨.wallet 7 0, 0, 0, false, false, false⟩) ∧
    (relayRealtime plainConfig plainAudio voiceInfo walletRelay (start noonEnv walletRelay sampleDb
      sampleDb ⟨.wallet 7 0, 0, 0, false, false, false⟩) (some [voiceEvent, voiceEvent])).fundingNet
      = ([voiceEvent, voiceEvent].map (voiceInfo.due plainAudio)).sum :=
  ⟨rfl, (realtime_exact_iff plainConfig noonEnv sampleReads ⟨noSessionFaults, noSessionFaults⟩
    walletRelay 0 sampleDb sampleDb ⟨.wallet 7 0, 0, 0, false, false, false⟩ plainAudio voiceInfo
    [voiceEvent, voiceEvent] rfl rfl
    ⟨⟨rfl, by decide +kernel⟩, ⟨rfl, by decide +kernel⟩, trivial⟩).1.2
    (by decide)⟩

/-- Two events of eight after an opening charge of three: nineteen are taken, and nothing is
settled. -/
theorem realtime_overcharged :
    newBillingSession plainConfig noonEnv sampleReads ⟨noSessionFaults, noSessionFaults⟩
        walletRelay 3 sampleDb = some (chargedDb, .ok walletSession) ∧
    (let r := relayRealtime plainConfig plainAudio voiceInfo walletRelay
      (start noonEnv walletRelay sampleDb chargedDb walletSession) (some [voiceEvent, voiceEvent])
    (r.fundingNet, ([voiceEvent, voiceEvent].map (voiceInfo.due plainAudio)).sum,
      r.session.settled, r.session.refunded) = (19, 16, false, false)) :=
  ⟨rfl, by decide +kernel⟩

end SessionRun

end AggreApi
