import AggreApi.TextQuota

/-!
# What a text request is charged

Where the ratio is not 0 the charge is the rounded amount, but at least 1: the two places that
raise it to 1 together hide that the amount may be small or negative. The amount itself is linear
in the uncached, cached, written and completion tokens, however the prompt counts them.
-/

namespace AggreApi

theorem roundHalfAway_nonneg {x : ℚ} (h : 0 ≤ x) : 0 ≤ roundHalfAway x := by
  rw [roundHalfAway, if_pos h]
  exact Int.floor_nonneg.2 (by linarith)

theorem roundHalfAway_nonpos {x : ℚ} (h : x ≤ 0) : roundHalfAway x ≤ 0 := by
  unfold roundHalfAway
  split_ifs with hx
  · obtain rfl := le_antisymm h hx
    norm_num
  · exact Int.ceil_le.2 (by push_cast; linarith)

theorem roundHalfAway_mono : Monotone roundHalfAway := by
  intro x y hxy
  by_cases hx : 0 ≤ x
  · simp only [roundHalfAway, hx, hx.trans hxy, if_true]
    exact Int.floor_mono (by linarith)
  · by_cases hy : 0 ≤ y
    · exact (roundHalfAway_nonpos (not_le.1 hx).le).trans (roundHalfAway_nonneg hy)
    · simp only [roundHalfAway, hx, hy, if_false]
      exact Int.ceil_mono (by linarith)

theorem roundHalfAway_intCast (n : ℤ) : roundHalfAway n = n := by
  unfold roundHalfAway
  split_ifs
  · rw [Int.floor_eq_iff]
    constructor <;> linarith
  · rw [Int.ceil_eq_iff]
    constructor <;> linarith

abbrev Usage.recount (u : Usage) (p k c : ℤ) : Usage :=
  { u with promptTokens := p, completionTokens := k, cachedTokens := c }

namespace QuotaInfo

variable (setting : QuotaSetting) (info : QuotaInfo) (served : Served) (u : Usage)

def ratio : ℚ := info.price.modelRatio * info.groupRatio

/-- The tokens read from the cache and written to it are not among those taken off the prompt. -/
def outside : Bool :=
  info.usageSemanticFromUsage (some u) = "anthropic" || info.isLegacyClaudeDerivedOpenAIUsage u

def tokensOf : ℤ × ℤ := info.openRouterTokens setting (info.usageSemanticFromUsage (some u)) u

def charge : ℤ :=
  (info.calculateTextQuotaSummary setting { served with usage := some u }).quota

theorem charge_eq : info.charge setting served u =
    if u.promptTokens + u.completionTokens = 0 then 0
    else
      let quota := roundHalfAway
        (info.rawQuota setting served (info.outside u) (info.tokensOf setting u) u)
      if info.ratio ≠ 0 ∧ quota = 0 then 1 else quota := rfl

/-- The amount of a model priced by tokens, before it is raised. -/
def tokenAmount : ℚ :=
  let weighted := info.tokenQuota setting (info.outside u) (info.tokensOf setting u) u
  (weighted.1 * info.ratio + info.toolQuota setting served + weighted.2) *
    info.price.otherRatios.prod

theorem rawQuota_tokens (h : info.price.usePrice = false) :
    info.rawQuota setting served (info.outside u) (info.tokensOf setting u) u =
      if info.ratio ≠ 0 ∧ info.tokenAmount setting served u ≤ 0 then 1
      else info.tokenAmount setting served u := by
  simp only [rawQuota, h, Bool.false_eq_true, if_false]
  rfl

theorem charge_tokens (h : info.price.usePrice = false)
    (htotal : u.promptTokens + u.completionTokens ≠ 0) :
    info.charge setting served u =
      if info.ratio = 0 then roundHalfAway (info.tokenAmount setting served u)
      else max 1 (roundHalfAway (info.tokenAmount setting served u)) := by
  rw [charge_eq, if_neg htotal, rawQuota_tokens setting info served u h]
  by_cases hratio : info.ratio = 0
  · simp [hratio]
  · simp only [hratio, ne_eq, not_false_eq_true, true_and, if_false]
    have h1 : roundHalfAway 1 = 1 := roundHalfAway_intCast 1
    by_cases hpos : info.tokenAmount setting served u ≤ 0
    · have := roundHalfAway_nonpos hpos
      simp only [if_pos hpos, h1, one_ne_zero, if_false]
      omega
    · have := roundHalfAway_nonneg (not_le.1 hpos).le
      simp only [if_neg hpos]
      split_ifs <;> omega

/-- The prompt tokens count those read from the cache. -/
def countsCached : Prop :=
  (info.channelType = ChannelType.openRouter ∧
    info.usageSemanticFromUsage (some u) = "anthropic") ∨ info.outside u = false

instance : Decidable (info.countsCached u) := inferInstanceAs (Decidable (_ ∨ _))

/-- The tokens written to the cache are inferred from the cost. -/
def InfersWrites : Prop :=
  info.channelType = ChannelType.openRouter ∧ info.usageSemanticFromUsage (some u) = "anthropic" ∧
    u.cachedCreationTokens = 0 ∧ info.price.cacheCreationRatio ≠ 1 ∧
    (info.price.usePrice ||
      setting.hasCustomModelRatio info.originModelName info.price.modelRatio) = false

instance : Decidable (info.InfersWrites setting u) := inferInstanceAs (Decidable (_ ∧ _))

theorem tokensOf_recount (h : ¬ info.InfersWrites setting u) (p k c : ℤ) :
    info.tokensOf setting (u.recount p k c) =
      (if info.channelType = ChannelType.openRouter ∧
          info.usageSemanticFromUsage (some u) = "anthropic" then p - c - u.cachedCreationTokens
        else p, u.cachedCreationTokens) := by
  change info.openRouterTokens setting (info.usageSemanticFromUsage (some u)) (u.recount p k c) = _
  unfold openRouterTokens
  by_cases hrouter : info.channelType = ChannelType.openRouter ∧
      info.usageSemanticFromUsage (some u) = "anthropic"
  · simp only [if_pos hrouter]
    rw [if_neg]
    intro hi
    exact h ⟨hrouter.1, hrouter.2, hi.1, hi.2.1, hi.2.2.1⟩
  · simp [if_neg hrouter]

theorem cacheTokens_read (o : Bool) (created : ℤ) : info.cacheTokensWithRatio o created u =
    ((if o then 0 else (u.cachedTokens : ℚ)) +
        (info.cacheTokensWithRatio o created (u.recount 0 0 0)).1,
      u.cachedTokens * info.price.cacheRatio +
        (info.cacheTokensWithRatio o created (u.recount 0 0 0)).2) := by
  unfold cacheTokensWithRatio Usage.recount
  by_cases h : u.cachedTokens = 0 <;> cases o <;> simp [h]

theorem tokenQuota_recount (o : Bool) (x y w p k c : ℤ) :
    info.tokenQuota setting o (y, w) (u.recount p k c) =
      ((info.tokenQuota setting o (x, w) u).1 +
          ((y - x) - (if o then 0 else (c - u.cachedTokens : ℚ)) +
            (c - u.cachedTokens) * info.price.cacheRatio +
            (k - u.completionTokens) * info.price.completionRatio),
        (info.tokenQuota setting o (x, w) u).2) := by
  unfold tokenQuota
  simp only [cacheTokens_read info u, cacheTokens_read info (u.recount p k c)]
  simp only [Usage.recount]
  refine Prod.ext ?_ rfl
  by_cases ha : u.audioTokens ≠ 0 ∧
      0 < getGeminiInputAudioPricePerMillionTokens info.originModelName
  · cases o
    all_goals
      simp only [if_pos ha, Bool.false_eq_true, if_true, if_false]
      ring
  · cases o
    all_goals
      simp only [if_neg ha, Bool.false_eq_true, if_true, if_false]
      ring

def gain (p k c : ℤ) : ℚ :=
  (p - u.promptTokens) - (if info.countsCached u then (c - u.cachedTokens : ℚ) else 0) +
    (c - u.cachedTokens) * info.price.cacheRatio +
    (k - u.completionTokens) * info.price.completionRatio

theorem tokenAmount_recount (h : ¬ info.InfersWrites setting u) (p k c : ℤ) :
    info.tokenAmount setting served (u.recount p k c) = info.tokenAmount setting served u +
      info.gain u p k c * info.ratio * info.price.otherRatios.prod := by
  have hout : info.outside (u.recount p k c) = info.outside u := rfl
  have hold := info.tokensOf_recount setting u h u.promptTokens u.completionTokens u.cachedTokens
  simp only [show u.recount u.promptTokens u.completionTokens u.cachedTokens = u from rfl] at hold
  simp only [tokenAmount, hout, hold, info.tokensOf_recount setting u h p k c]
  rw [info.tokenQuota_recount setting u (info.outside u) (if info.channelType =
    ChannelType.openRouter ∧ info.usageSemanticFromUsage (some u) = "anthropic" then
      u.promptTokens - u.cachedTokens - u.cachedCreationTokens else u.promptTokens)]
  by_cases hrouter : info.channelType = ChannelType.openRouter ∧
      info.usageSemanticFromUsage (some u) = "anthropic"
  · have hin : info.outside u = true := by simp [outside, hrouter.2]
    simp only [gain, countsCached, hrouter, hin, and_self, true_or, if_true]
    push_cast
    ring
  · simp only [gain, countsCached, hrouter, false_or, if_false]
    cases info.outside u
    · simp only [Bool.false_eq_true, if_true, if_false]
      ring
    · simp only [Bool.true_eq_false, if_true, if_false]
      ring

section
variable (h5 : u.claudeCacheCreation5mTokens = 0) (h1 : u.claudeCacheCreation1hTokens = 0)
include h5 h1

theorem cacheTokens_unsplit (o : Bool) {w : ℤ} (hw : 0 ≤ w) :
    info.cacheTokensWithRatio o w u =
      (if o then 0 else (u.cachedTokens + w : ℚ),
        u.cachedTokens * info.price.cacheRatio + w * info.price.cacheCreationRatio) := by
  unfold cacheTokensWithRatio
  by_cases hr : u.cachedTokens = 0 <;> by_cases hw0 : w = 0 <;> cases o <;>
    simp [hr, hw0, h5, h1, hw]

theorem tokenQuota_unsplit {w : ℤ} (hw : 0 ≤ w) (x : ℤ) :
    info.tokenQuota setting false (x + u.cachedTokens + w, w) u =
      info.tokenQuota setting true (x, w) u := by
  simp only [tokenQuota, info.cacheTokens_unsplit u h5 h1 _ hw, Bool.false_eq_true, if_true,
    if_false, Prod.mk.injEq, and_true]
  push_cast
  ring

end

theorem charge_congr {info' : QuotaInfo} {u' : Usage} (hprice : info'.price = info.price)
    (hraw : info'.rawQuota setting served (info'.outside u') (info'.tokensOf setting u') u' =
      info.rawQuota setting served (info.outside u) (info.tokensOf setting u) u)
    (hgroup : info'.groupRatio = info.groupRatio)
    (htotal : u.promptTokens + u.completionTokens ≠ 0)
    (htotal' : u'.promptTokens + u'.completionTokens ≠ 0) :
    info'.charge setting served u' = info.charge setting served u := by
  rw [charge_eq, charge_eq, if_neg htotal, if_neg htotal', hraw, ratio, ratio, hprice, hgroup]

/-- A Claude usage costs the same as it is told to an OpenAI client, and as an OpenRouter channel
reports it. -/
theorem conventions_charged_alike (hsemantic : info.usageSemanticFromUsage (some u) = "anthropic")
    (hchannel : info.channelType ≠ ChannelType.openRouter)
    (h5 : u.claudeCacheCreation5mTokens = 0) (h1 : u.claudeCacheCreation1hTokens = 0)
    (hc : 0 ≤ u.cachedTokens) (hw : 0 ≤ u.cachedCreationTokens)
    (hpos : 0 < u.promptTokens + u.completionTokens)
    (format : FormatInfo) (channelType : ℕ) (semantic : String) :
    QuotaInfo.charge setting { info with format, channelType } served
        (buildOpenAIStyleUsageFromClaudeUsage u) = info.charge setting served u ∧
      (0 < u.cachedCreationTokens →
        QuotaInfo.usageSemanticFromUsage { info with format }
          (some { u with usageSemantic := semantic }) = "anthropic" →
        QuotaInfo.charge setting { info with format, channelType := ChannelType.openRouter } served
            { u with
              promptTokens := u.promptTokens + u.cachedTokens + u.cachedCreationTokens
              usageSemantic := semantic } = info.charge setting served u) := by
  have hbuild : (buildOpenAIStyleUsageFromClaudeUsage u).promptTokens =
      u.promptTokens + u.cachedTokens + u.cachedCreationTokens := by
    simp [buildOpenAIStyleUsageFromClaudeUsage, cacheCreationTokensForOpenAIUsage, h5, h1]
  have hout : info.outside u = true := by simp [outside, hsemantic]
  have htokens : info.tokensOf setting u = (u.promptTokens, u.cachedCreationTokens) := by
    simp [tokensOf, openRouterTokens, hchannel]
  refine ⟨charge_congr setting info served u rfl ?_ rfl hpos.ne' ?_, fun hw' hrouter =>
    charge_congr setting info served u rfl ?_ rfl hpos.ne' ?_⟩
  · have hout' : QuotaInfo.outside { info with format, channelType }
        (buildOpenAIStyleUsageFromClaudeUsage u) = false := by
      simp [outside, usageSemanticFromUsage, isLegacyClaudeDerivedOpenAIUsage,
        buildOpenAIStyleUsageFromClaudeUsage]
    have htokens' : QuotaInfo.tokensOf setting { info with format, channelType }
        (buildOpenAIStyleUsageFromClaudeUsage u) =
          (u.promptTokens + u.cachedTokens + u.cachedCreationTokens, u.cachedCreationTokens) := by
      rw [← hbuild]
      simp [tokensOf, openRouterTokens, usageSemanticFromUsage,
        buildOpenAIStyleUsageFromClaudeUsage]
    rw [hout, hout', htokens, htokens', rawQuota, rawQuota,
      ← info.tokenQuota_unsplit setting u h5 h1 hw u.promptTokens]
    rfl
  · rw [hbuild]
    show u.promptTokens + u.cachedTokens + u.cachedCreationTokens + u.completionTokens ≠ 0
    omega
  · have hout' : QuotaInfo.outside
        { info with format, channelType := ChannelType.openRouter } { u with
          promptTokens := u.promptTokens + u.cachedTokens + u.cachedCreationTokens
          usageSemantic := semantic } = true := by
      unfold outside
      rw [Bool.or_eq_true, decide_eq_true_eq]
      exact .inl hrouter
    have htokens' := tokensOf_recount setting
      { info with format, channelType := ChannelType.openRouter }
      { u with usageSemantic := semantic } (fun hi => hw'.ne' hi.2.2.1)
      (u.promptTokens + u.cachedTokens + u.cachedCreationTokens) u.completionTokens u.cachedTokens
    rw [if_pos ⟨rfl, hrouter⟩, show u.promptTokens + u.cachedTokens + u.cachedCreationTokens -
      u.cachedTokens - u.cachedCreationTokens = u.promptTokens by ring] at htokens'
    rw [hout, hout', htokens, htokens']
    rfl
  · show u.promptTokens + u.cachedTokens + u.cachedCreationTokens + u.completionTokens ≠ 0
    omega

def sampleSetting : QuotaSetting where
  quotaPerUnit := 500000
  defaultModelRatio _ := some 1

/-- A model whose cached tokens are free. -/
def sampleOn (channelType : ℕ) : QuotaInfo where
  originModelName := "m"
  format := .gen .claude
  channelType
  price := { modelRatio := 1, completionRatio := 5, cacheCreationRatio := 5 / 4 }
  groupRatio := 1

theorem conventions_charged_alike_sample :
    QuotaInfo.charge sampleSetting (sampleOn 14) {} (buildOpenAIStyleUsageFromClaudeUsage
        { promptTokens := 3, cachedTokens := 4, cachedCreationTokens := 5 }) =
      QuotaInfo.charge sampleSetting (sampleOn 14) {}
        { promptTokens := 3, cachedTokens := 4, cachedCreationTokens := 5 } :=
  (conventions_charged_alike sampleSetting (sampleOn 14) {}
    { promptTokens := 3, cachedTokens := 4, cachedCreationTokens := 5 } rfl (by decide) rfl rfl
    (by decide) (by decide) (by decide) (.gen .claude) 14 "").1

/-- No count, ratio or price is negative. -/
structure NonNeg : Prop where
  quotaPerUnit : 0 ≤ setting.quotaPerUnit
  groupRatio : 0 ≤ info.groupRatio
  modelPrice : 0 ≤ info.price.modelPrice
  modelRatio : 0 ≤ info.price.modelRatio
  completionRatio : 0 ≤ info.price.completionRatio
  otherRatios : ∀ r ∈ info.price.otherRatios, 0 ≤ r
  promptTokens : 0 ≤ u.promptTokens
  completionTokens : 0 ≤ u.completionTokens
  audioTokens : 0 ≤ u.audioTokens

section NonNeg

variable {setting info u} (hn : info.NonNeg setting u)

include hn

theorem ratio_nonneg : 0 ≤ info.ratio := mul_nonneg hn.modelRatio hn.groupRatio

theorem toolQuota_nonneg : 0 ≤ info.toolQuota setting served := by
  have hunit := mul_nonneg hn.groupRatio hn.quotaPerUnit
  have hweb : 0 ≤ getWebSearchPricePerThousand info.originModelName := by
    unfold getWebSearchPricePerThousand
    split_ifs <;> norm_num
  have himage : ∀ quality size, 0 ≤ getGPTImage1PriceOnceCall quality size := by
    intro quality size
    unfold getGPTImage1PriceOnceCall
    dsimp only
    split_ifs <;> norm_num
  unfold toolQuota claudeWebSearchPricePerThousand fileSearchPricePerThousand
  refine add_nonneg (by positivity) ?_
  rcases served.imageGenerationCall with _ | ⟨quality, size⟩
  · exact le_rfl
  · exact mul_nonneg (himage quality size) hunit

theorem otherRatios_nonneg : 0 ≤ info.price.otherRatios.prod := List.prod_nonneg hn.otherRatios

theorem rawQuota_nonneg :
    0 ≤ info.rawQuota setting served (info.outside u) (info.tokensOf setting u) u := by
  have htool := toolQuota_nonneg served hn
  cases hprice : info.price.usePrice with
  | true =>
    simp only [rawQuota, hprice, if_true]
    exact mul_nonneg (add_nonneg (mul_nonneg (mul_nonneg hn.modelPrice hn.quotaPerUnit)
      hn.groupRatio) htool) (otherRatios_nonneg hn)
  | false =>
    rw [rawQuota_tokens setting info served u hprice]
    split_ifs with hclamp
    · exact zero_le_one
    · by_cases hratio : info.ratio = 0
      · unfold tokenAmount tokenQuota
        simp only [hratio, mul_zero, zero_add]
        refine mul_nonneg (add_nonneg htool ?_) (otherRatios_nonneg hn)
        split_ifs with ha
        · have := hn.audioTokens
          have := hn.groupRatio
          have := hn.quotaPerUnit
          have := ha.2
          positivity
        · exact le_rfl
      · exact (not_le.1 fun hle => hclamp ⟨hratio, hle⟩).le

theorem charge_nonneg : 0 ≤ info.charge setting served u := by
  have := roundHalfAway_nonneg (rawQuota_nonneg served hn)
  rw [charge_eq]
  dsimp only
  split_ifs <;> omega

theorem charge_pos (htotal : 0 < u.promptTokens + u.completionTokens) (hratio : info.ratio ≠ 0) :
    1 ≤ info.charge setting served u := by
  have := roundHalfAway_nonneg (rawQuota_nonneg served hn)
  rw [charge_eq, if_neg htotal.ne']
  dsimp only
  split_ifs with h
  · exact le_rfl
  · have : roundHalfAway _ ≠ 0 := fun h0 => h ⟨hratio, h0⟩
    omega

theorem charge_le_recount (hi : ¬ info.InfersWrites setting u) {p k c : ℤ} (hp : 0 ≤ p)
    (hk : 0 ≤ k) (htotal : u.promptTokens + u.completionTokens ≤ p + k)
    (hgain : 0 ≤ info.gain u p k c) :
    info.charge setting served u ≤ info.charge setting served (u.recount p k c) := by
  have hn' : info.NonNeg setting (u.recount p k c) :=
    { hn with promptTokens := hp, completionTokens := hk }
  by_cases hzero : u.promptTokens + u.completionTokens = 0
  · rw [charge_eq, if_pos hzero]
    exact charge_nonneg served hn'
  · have hpos := hn.promptTokens
    have hcomp := hn.completionTokens
    have hzero' : p + k ≠ 0 := by omega
    cases hprice : info.price.usePrice with
    | true =>
      rw [charge_eq, charge_eq, if_neg hzero, if_neg hzero']
      simp only [rawQuota, hprice, if_true]
      exact le_rfl
    | false =>
      have hle : info.tokenAmount setting served u ≤
          info.tokenAmount setting served (u.recount p k c) := by
        rw [tokenAmount_recount setting info served u hi p k c]
        have := mul_nonneg (mul_nonneg hgain (ratio_nonneg hn)) (otherRatios_nonneg hn)
        linarith
      have hround := roundHalfAway_mono hle
      rw [charge_tokens setting info served u hprice hzero,
        charge_tokens setting info served (u.recount p k c) hprice hzero']
      split_ifs <;> omega

end NonNeg

def uncache : Usage :=
  u.recount (if info.countsCached u then u.promptTokens else u.promptTokens + 1)
    u.completionTokens (u.cachedTokens - 1)

/-- Charges are not negative, nothing is charged for no token and something for every other, and
more tokens or fewer cached ones never cost less. -/
theorem text_charge_sane (hn : info.NonNeg setting u) (hi : ¬ info.InfersWrites setting u) :
    0 ≤ info.charge setting served u ∧
      (u.promptTokens + u.completionTokens = 0 → info.charge setting served u = 0) ∧
      (0 < u.promptTokens + u.completionTokens → info.price.modelRatio * info.groupRatio ≠ 0 →
        1 ≤ info.charge setting served u) ∧
      (∀ k ≥ u.completionTokens, info.charge setting served u ≤
        info.charge setting served { u with completionTokens := k }) ∧
      (∀ p ≥ u.promptTokens, info.charge setting served u ≤
        info.charge setting served { u with promptTokens := p }) ∧
      (info.price.cacheRatio ≤ 1 →
        info.charge setting served u ≤ info.charge setting served (info.uncache u)) := by
  have hp := hn.promptTokens
  have hk := hn.completionTokens
  refine ⟨charge_nonneg served hn, fun h0 => ?_, charge_pos served hn, fun k hge => ?_,
    fun p hge => ?_, fun hcache => ?_⟩
  · rw [charge_eq, if_pos h0]
  · refine charge_le_recount served hn hi (c := u.cachedTokens) hp (hk.trans hge) (by omega) ?_
    have hge' : (u.completionTokens : ℚ) ≤ k := by exact_mod_cast hge
    have := mul_nonneg (sub_nonneg.2 hge') hn.completionRatio
    simpa [gain] using this
  · refine charge_le_recount served hn hi (c := u.cachedTokens) (hp.trans hge) hk (by omega) ?_
    have hge' : (u.promptTokens : ℚ) ≤ p := by exact_mod_cast hge
    simpa [gain] using hge'
  · unfold uncache
    split_ifs with hcounts
    · refine charge_le_recount served hn hi hp hk le_rfl ?_
      simp only [gain, if_pos hcounts]
      push_cast
      linarith
    · refine charge_le_recount served hn hi (by omega) hk (by omega) ?_
      simp only [gain, if_neg hcounts]
      push_cast
      linarith

theorem text_charge_sane_sample :
    0 ≤ QuotaInfo.charge sampleSetting (sampleOn 14) {} { promptTokens := 3 } := by
  refine (text_charge_sane sampleSetting (sampleOn 14) {} { promptTokens := 3 } ?_ ?_).1
  · constructor <;> simp [sampleSetting, sampleOn]
  · intro h
    exact absurd h.1 (by decide)

/-- A usage that an OpenRouter channel reports with its cost, of which `w` tokens were written. -/
def routerUsage (p c w k : ℕ) (usageSemantic usageSource : String) : Usage where
  promptTokens := p
  completionTokens := k
  cachedTokens := c
  usageSemantic
  usageSource
  cost :=
    let q := info.price.modelRatio / setting.quotaPerUnit
    q * (p - c - w) + c * q * info.price.cacheRatio + w * q * info.price.cacheCreationRatio +
      k * q * info.price.completionRatio

def costAmount (cost : ℚ) : ℚ :=
  (cost * setting.quotaPerUnit * info.groupRatio + info.toolQuota setting served) *
    info.price.otherRatios.prod

/-- The tokens written are found again from the cost, and the amount charged is the cost, but where
that is not positive. -/
theorem inferred_writes_charged {p c w k : ℕ} {usageSemantic usageSource : String}
    (hu : u = info.routerUsage setting p c w k usageSemantic usageSource)
    (hratio : 0 < info.price.modelRatio) (hunit : 0 < setting.quotaPerUnit)
    (hcreate : info.price.cacheCreationRatio ≠ 1) (hle : c + w ≤ p) :
    setting.calcOpenRouterCacheCreateTokens u info.price = w ∧
      (info.channelType = ChannelType.openRouter →
        info.usageSemanticFromUsage (some u) = "anthropic" → info.price.usePrice = false →
        setting.defaultModelRatio info.originModelName = some info.price.modelRatio →
        info.tokensOf setting u = ((p - c - w : ℤ), (w : ℤ)) ∧
          info.rawQuota setting served (info.outside u) (info.tokensOf setting u) u =
            if info.price.modelRatio * info.groupRatio ≠ 0 ∧
              info.costAmount setting served u.cost ≤ 0 then 1
            else info.costAmount setting served u.cost) := by
  have hq : info.price.modelRatio / setting.quotaPerUnit ≠ 0 := (div_pos hratio hunit).ne'
  have hcalc : setting.calcOpenRouterCacheCreateTokens u info.price = w := by
    unfold QuotaSetting.calcOpenRouterCacheCreateTokens
    rw [if_neg hcreate]
    refine Eq.trans (congrArg roundHalfAway ?_) (roundHalfAway_intCast w)
    have hsub := sub_ne_zero.2 hcreate
    rw [div_eq_iff (by rw [← mul_sub_one]; exact mul_ne_zero hq hsub), hu]
    simp only [routerUsage]
    push_cast
    ring
  refine ⟨hcalc, fun hchannel hsemantic hprice hdefault => ?_⟩
  have htokens : info.tokensOf setting u = ((p - c - w : ℤ), (w : ℤ)) := by
    unfold tokensOf openRouterTokens
    rw [if_pos ⟨hchannel, hsemantic⟩]
    have hcustom : (info.price.usePrice || setting.hasCustomModelRatio info.originModelName
        info.price.modelRatio) = false := by
      simp [QuotaSetting.hasCustomModelRatio, hprice, hdefault]
    simp only [hcalc]
    rw [hu, if_pos ⟨rfl, hcreate, hcustom, by omega, by simp only [routerUsage]; omega⟩]
    rfl
  refine ⟨htokens, ?_⟩
  have hout : info.outside u = true := by simp [outside, hsemantic]
  have hamount : info.tokenAmount setting served u = info.costAmount setting served u.cost := by
    simp only [tokenAmount, htokens, hout, tokenQuota, costAmount,
      info.cacheTokens_unsplit u (by rw [hu]; rfl) (by rw [hu]; rfl) true (w := w) (by omega)]
    simp only [hu, routerUsage, ratio, if_true, ne_eq, not_true_eq_false, false_and, if_false]
    push_cast
    field_simp
    ring
  rw [rawQuota_tokens setting info served u hprice, hamount]
  rfl

theorem inferred_writes_charged_sample : sampleSetting.calcOpenRouterCacheCreateTokens
    (QuotaInfo.routerUsage sampleSetting (sampleOn 20) 9 2 3 1 "" "") (sampleOn 20).price = 3 :=
  (inferred_writes_charged sampleSetting (sampleOn 20) {} _ rfl (by simp [sampleOn])
    (by simp [sampleSetting]) (by simp [sampleOn]; norm_num) (by omega)).1

/-- A prompt read from the cache; the model's cached tokens are free. -/
def freeRead : Usage := QuotaInfo.routerUsage sampleSetting (sampleOn 20) 1 1 0 0 "" ""

theorem free_cache_charged :
    freeRead.cost = 0 ∧ QuotaInfo.rawQuota sampleSetting (sampleOn 20) {}
      (QuotaInfo.outside (sampleOn 20) freeRead)
      (QuotaInfo.tokensOf sampleSetting (sampleOn 20) freeRead) freeRead = 1 := by
  decide +kernel

end QuotaInfo

end AggreApi
