import AggreApi.ChannelContext

/-!
# What a channel's context keeps of the channels before it

`newChannelMeta_setup_eq_iff` says which entries of an earlier context reach the meta of a channel:
the organization, the multi-key index and the api version, each unless the channel sets it, and the
model name.
-/

namespace AggreApi

variable {p : ChannelPick} {c : ChannelContext} {s : ChannelRequest}

section mapping
variable {modelMap : List (String × String)} {originName : String}

theorem mem_keys_of_lookup {k v : String} (h : modelMap.lookup k = some v) :
    k ∈ modelMap.map Prod.fst := by
  rw [List.lookup_eq_some_iff] at h
  obtain ⟨pre, post, rfl, -⟩ := h
  simp

theorem followMapping_isSome : ∀ (fuel : ℕ) (current : String) (visited : List String)
    (mapped : Bool), (current :: visited).Nodup → visited ⊆ modelMap.map Prod.fst →
    modelMap.length < fuel + visited.length →
    (followMapping modelMap originName fuel current (current :: visited) mapped).isSome
  | 0, current, visited, mapped, hnd, hsub, hlen => by
    have hle := (List.Nodup.subperm (List.Nodup.of_cons hnd) hsub).length_le
    rw [List.length_map] at hle
    omega
  | fuel + 1, current, visited, mapped, hnd, hsub, hlen => by
    rw [followMapping]
    split
    · rfl
    · rename_i next hnext
      split_ifs with hempty hin hself horigin
      · rfl
      · rfl
      · rfl
      · rfl
      · refine followMapping_isSome fuel next (current :: visited) true
          (List.nodup_cons.2 ⟨hin, hnd⟩) ?_ ?_
        · exact List.cons_subset.2 ⟨mem_keys_of_lookup hnext, hsub⟩
        · simp only [List.length_cons]
          omega

theorem redirect_isSome (name : String) : (redirect modelMap originName name).isSome :=
  followMapping_isSome _ name [] false (List.nodup_singleton name) (List.nil_subset _) (by simp)

end mapping

theorem ite_eq_ite_iff_or {α : Type*} {p : Prop} [Decidable p] {a x y : α} :
    ((if p then a else x) = if p then a else y) ↔ p ∨ x = y := by
  split_ifs with h <;> simp [h]

/-- Whether the type of the channel is one whose setup writes the api version its meta reads. -/
def Channel.setsApiVersion (ch : Channel) : Bool :=
  ch.type = ChannelType.azure ∨ ch.type = ChannelType.xunfei ∨ ch.type = ChannelType.gemini ∨
    ch.type = ChannelType.cloudflare ∨ ch.type = ChannelType.mokaAI ∨
    ch.type = ChannelType.vertexAi

namespace ChannelContext

variable (env : ChannelEnv) (ch : Channel) (pick : KeyPick) (baseUrl : String)

def afterSetup (c : ChannelContext) (name : String) : ChannelContext :=
  ((({ c with originalModel := name } : ChannelContext).setChannel env ch).setKey ch pick
    baseUrl).setOther ch

variable {env ch pick baseUrl}

theorem setup_done {c' : ChannelContext} {k : KeyDraw} {name : String}
    (h : c.setupContextForSelectedChannel env (some ch) k name = (c', .done)) :
    ∃ pick baseUrl, ch.getNextEnabledKey env.unmarshalRaw k = .ok pick ∧
      ch.getBaseURL = some baseUrl ∧ c' = afterSetup env ch pick baseUrl c name := by
  simp only [setupContextForSelectedChannel] at h
  split at h
  · simp at h
  · rename_i pick hpick
    split at h
    · simp at h
    · rename_i baseUrl hurl
      simp only [Prod.mk.injEq, and_true] at h
      exact ⟨pick, baseUrl, hpick, hurl, h.symm⟩

theorem setup_of_key {k : KeyDraw} {name : String}
    (hkey : ch.getNextEnabledKey env.unmarshalRaw k = .ok pick)
    (hurl : ch.getBaseURL = some baseUrl) :
    c.setupContextForSelectedChannel env (some ch) k name =
      (afterSetup env ch pick baseUrl c name, .done) := by
  simp only [setupContextForSelectedChannel, hkey, hurl]
  rfl

theorem setOther_cases (c : ChannelContext) (ch : Channel) :
    ((ch.type = ChannelType.azure ∨ ch.type = ChannelType.xunfei ∨ ch.type = ChannelType.gemini ∨
        ch.type = ChannelType.cloudflare ∨ ch.type = ChannelType.mokaAI) ∧
      c.setOther ch = { c with apiVersion := ch.other }) ∨
    (ch.type = ChannelType.vertexAi ∧ c.setOther ch = { c with region := ch.other }) ∨
    (¬(ch.type = ChannelType.azure ∨ ch.type = ChannelType.xunfei ∨
        ch.type = ChannelType.gemini ∨ ch.type = ChannelType.cloudflare ∨
        ch.type = ChannelType.mokaAI) ∧ ch.type ≠ ChannelType.vertexAi ∧
      ∃ plugin botId, c.setOther ch = { c with plugin, botId }) := by
  unfold setOther
  split_ifs with hfive hvertex hali hcoze
  · exact .inl ⟨hfive, rfl⟩
  · exact .inr (.inl ⟨hvertex, rfl⟩)
  · exact .inr (.inr ⟨hfive, hvertex, ch.other, c.botId, rfl⟩)
  · exact .inr (.inr ⟨hfive, hvertex, c.plugin, ch.other, rfl⟩)
  · exact .inr (.inr ⟨hfive, hvertex, c.plugin, c.botId, rfl⟩)

theorem newChannelMeta_setOther (c : ChannelContext) (hc : c.channelType = ch.type) :
    newChannelMeta env (c.setOther ch) =
      { newChannelMeta env c with
        apiVersion :=
          if ch.type = ChannelType.azure then
            if env.apiVersion = "" then ch.other else env.apiVersion
          else if ch.setsApiVersion then ch.other
          else c.apiVersion } := by
  rcases setOther_cases c ch with ⟨h, hset⟩ | ⟨h, hset⟩ | ⟨hne, hv, p, b, hset⟩
  · rw [hset]
    rcases h with h | h | h | h | h <;>
      simp [newChannelMeta, getAPIVersion, hc, h, Channel.setsApiVersion, ChannelType.azure,
        ChannelType.xunfei, ChannelType.gemini, ChannelType.cloudflare, ChannelType.mokaAI,
        ChannelType.vertexAi]
  · rw [hset]
    simp [newChannelMeta, hc, h, Channel.setsApiVersion, ChannelType.azure, ChannelType.vertexAi]
  · rw [hset]
    simp only [not_or] at hne
    simp [newChannelMeta, hc, hne, hv, Channel.setsApiVersion]

theorem afterSetup_originalModel (c : ChannelContext) (name : String) :
    (afterSetup env ch pick baseUrl c name).originalModel = name := by
  rcases setOther_cases _ ch with ⟨-, h⟩ | ⟨-, h⟩ | ⟨-, -, _, _, h⟩ <;> rw [afterSetup, h] <;> rfl

theorem afterSetup_modelMapping (c : ChannelContext) (name : String) :
    (afterSetup env ch pick baseUrl c name).modelMapping = ch.getModelMapping := by
  rcases setOther_cases _ ch with ⟨-, h⟩ | ⟨-, h⟩ | ⟨-, -, _, _, h⟩ <;> rw [afterSetup, h] <;> rfl

theorem newChannelMeta_setup_eq_iff (c d : ChannelContext) (n m : String) :
    newChannelMeta env (afterSetup env ch pick baseUrl c n) =
        newChannelMeta env (afterSetup env ch pick baseUrl d m) ↔
      (ch.namesOrganization ∨ c.channelOrganization = d.channelOrganization) ∧
      (ch.channelInfo.isMultiKey ∨ c.channelMultiKeyIndex = d.channelMultiKeyIndex) ∧
      (ch.setsApiVersion ∨ c.apiVersion = d.apiVersion) ∧ n = m := by
  rw [afterSetup, afterSetup, newChannelMeta_setOther _ rfl, newChannelMeta_setOther _ rfl]
  simp only [newChannelMeta, setKey, setChannel, ChannelMeta.mk.injEq, true_and, and_true]
  have hazure : ch.type = ChannelType.azure → ch.setsApiVersion = true := fun h => by
    simp [Channel.setsApiVersion, h]
  have hversion : ((if ch.type = ChannelType.azure then
        if env.apiVersion = "" then ch.other else env.apiVersion
        else if ch.setsApiVersion = true then ch.other else c.apiVersion) =
      if ch.type = ChannelType.azure then
        if env.apiVersion = "" then ch.other else env.apiVersion
        else if ch.setsApiVersion = true then ch.other else d.apiVersion) ↔
      ch.setsApiVersion = true ∨ c.apiVersion = d.apiVersion := by
    rw [ite_eq_ite_iff_or, ite_eq_ite_iff_or, ← or_assoc, or_iff_right_of_imp hazure]
  rw [hversion, ite_eq_ite_iff_or, ite_eq_ite_iff_or]
  constructor
  · rintro ⟨hindex, hapi, horganization, hname⟩
    exact ⟨horganization, hindex, hapi, hname⟩
  · rintro ⟨horganization, hindex, hapi, hname⟩
    exact ⟨hindex, hapi, horganization, hname⟩

end ChannelContext

namespace AttemptInfo

variable {env : ChannelEnv}

theorem enterHandler_record_eq {handler : RelayHandler} {d : ChannelContext}
    {info info' : AttemptInfo} (hmeta : newChannelMeta env c = newChannelMeta env d)
    (hmap : c.modelMapping = d.modelMapping)
    (hname : info.originModelName = info'.originModelName) :
    (info.enterHandler env handler c).2 = (info'.enterHandler env handler d).2 := by
  obtain ⟨name, m⟩ := info
  obtain ⟨name', m'⟩ := info'
  obtain rfl : name = name' := hname
  simp only [enterHandler, initChannelMeta, hmeta, hmap]
  rfl

theorem enterHandler_built {handler : RelayHandler} {info : AttemptInfo} :
    (info.enterHandler env handler c).2.built = newChannelMeta env c := by
  simp only [enterHandler]
  split
  · rfl
  · rfl
  · split <;> rfl
  · rfl

end AttemptInfo

namespace ChannelRequest

variable (env : ChannelEnv) (handler : RelayHandler) (modelName : String)

/-- Nothing that an earlier channel left in the state reaches the meta of the next one. -/
def untouched (s : ChannelRequest) (ch : Channel) : Prop :=
  (ch.namesOrganization ∨ s.ctx.channelOrganization = "") ∧
  (ch.channelInfo.isMultiKey ∨ s.ctx.channelMultiKeyIndex = 0) ∧
  (ch.setsApiVersion ∨ s.ctx.apiVersion = "") ∧ s.setupName modelName = modelName

/-- The context that a channel which can be set up gets. -/
def setupContext (s : ChannelRequest) (p : ChannelPick) (pick : KeyPick) (baseUrl : String) :
    ChannelContext :=
  ChannelContext.afterSetup env p.channel pick baseUrl s.ctx (s.setupName modelName)

theorem setupContext_modelMapping (s : ChannelRequest) (p : ChannelPick) (pick : KeyPick)
    (baseUrl : String) :
    (s.setupContext env modelName p pick baseUrl).modelMapping = p.channel.getModelMapping :=
  ChannelContext.afterSetup_modelMapping _ _

/-- What the handler makes of that context. -/
def enter (s : ChannelRequest) (p : ChannelPick) (pick : KeyPick) (baseUrl : String) :
    AttemptInfo × AttemptRecord :=
  (s.info.getD { originModelName := s.setupName modelName }).enterHandler env handler
    (s.setupContext env modelName p pick baseUrl)

theorem attempt_of_key {pick : KeyPick} {baseUrl : String} (hlive : s.ended = false)
    (hkey : p.channel.getNextEnabledKey env.unmarshalRaw p.key = .ok pick)
    (hurl : p.channel.getBaseURL = some baseUrl) :
    s.attempt env handler modelName p =
      (⟨s.setupContext env modelName p pick baseUrl,
          some (s.enter env handler modelName p pick baseUrl).1, false⟩,
        some (s.enter env handler modelName p pick baseUrl).2) := by
  simp [attempt, hlive, ChannelContext.setup_of_key hkey hurl, setupContext, enter,
    ChannelContext.afterSetup_originalModel]

theorem step_started (s : ChannelRequest) (p : ChannelPick) :
    (s.step env handler modelName p).ended = true ∨
      (s.step env handler modelName p).info.isSome := by
  simp only [step, attempt]
  split
  · rename_i hended
    exact .inl hended
  · split
    · exact .inl rfl
    · exact .inr rfl

theorem started_of_run {pre : List ChannelPick}
    (hlive : (run (step env handler modelName) {} pre).ended = false) :
    pre = [] ∨ (run (step env handler modelName) {} pre).info.isSome := by
  rcases List.eq_nil_or_concat pre with rfl | ⟨pre, p, rfl⟩
  · exact .inl rfl
  · rw [List.concat_eq_append, run_append] at hlive ⊢
    rcases step_started env handler modelName (run (step env handler modelName) {} pre) p with h | h
    · exact absurd (hlive.symm.trans h) (by simp)
    · exact .inr h

theorem setup_of_attempt (hinfo : s.info.isSome)
    (hmade : (s.attempt env handler modelName p).2.isSome) :
    ∃ pick baseUrl, p.channel.getNextEnabledKey env.unmarshalRaw p.key = .ok pick ∧
      p.channel.getBaseURL = some baseUrl := by
  simp only [attempt] at hmade
  split at hmade
  · simp at hmade
  · split at hmade
    · simp at hmade
    · rename_i hok
      have hdone : (s.ctx.setupContextForSelectedChannel env (some p.channel) p.key
          (s.setupName modelName)).2 = .done := by
        by_contra hne
        exact hok (.inr ⟨hinfo, hne⟩)
      obtain ⟨pick, baseUrl, hkey, hurl, -⟩ := ChannelContext.setup_done (Prod.ext rfl hdone)
      exact ⟨pick, baseUrl, hkey, hurl⟩

theorem live_of_attempt
    (hmade : (s.attempt env handler modelName p).2.isSome) : s.ended = false := by
  by_contra hended
  rw [Bool.not_eq_false] at hended
  simp [attempt, hended] at hmade

theorem info_of_attempt {r : AttemptRecord}
    (hmade : (s.attempt env handler modelName p).2 = some r) :
    ∃ info, (s.attempt env handler modelName p).1.info = some info := by
  simp only [attempt] at hmade ⊢
  split at hmade
  · cases hmade
  · split at hmade
    · cases hmade
    · rename_i hended hok
      rw [if_neg hended, if_neg hok]
      exact ⟨_, rfl⟩

theorem getD_originModelName (s : ChannelRequest) :
    (s.info.getD { originModelName := s.setupName modelName }).originModelName =
      s.setupName modelName := by
  unfold setupName
  cases s.info <;> rfl

/-- An attempt runs with the meta and upstream model name of a first attempt exactly if nothing the
earlier channels left is read for it. -/
theorem channel_meta_iff (pre : List ChannelPick) (p : ChannelPick)
    (hmade : ((run (step env handler modelName) {} pre).attempt env handler modelName p).2.isSome) :
    ((run (step env handler modelName) {} pre).attempt env handler modelName p).2 =
        (({} : ChannelRequest).attempt env handler modelName p).2 ↔
      (run (step env handler modelName) {} pre).untouched modelName p.channel := by
  have hlive := live_of_attempt env handler modelName hmade
  rcases started_of_run env handler modelName hlive with rfl | hinfo
  · simp [untouched, setupName]
  · obtain ⟨pick, baseUrl, hkey, hurl⟩ := setup_of_attempt env handler modelName hinfo hmade
    generalize run (step env handler modelName) {} pre = s at *
    rw [attempt_of_key env handler modelName hlive hkey hurl,
      attempt_of_key env handler modelName rfl hkey hurl, Option.some_inj, enter, enter]
    constructor
    · intro h
      have hmeta := congrArg AttemptRecord.built h
      rw [AttemptInfo.enterHandler_built, AttemptInfo.enterHandler_built] at hmeta
      exact (ChannelContext.newChannelMeta_setup_eq_iff _ _ _ _).1 hmeta
    · intro h
      refine AttemptInfo.enterHandler_record_eq
        ((ChannelContext.newChannelMeta_setup_eq_iff _ _ _ _).2 h) ?_ ?_
      · rw [setupContext_modelMapping, setupContext_modelMapping]
      · rw [getD_originModelName]
        exact h.2.2.2

def sampleChannelEnv : ChannelEnv where
  unmarshalRaw _ := none
  unmarshalMap text :=
    if text = "\x7b\"m\":\"x\"\x7d" then some [("m", "x")]
    else if text = "\x7b\"m\":\"y\"\x7d" then some [("m", "y")]
    else none
  containPriceOrRatio _ := false

def sampleOpenAI : ChannelPick := { channel := { id := 1, type := 1, key := "key-1" } }

def sampleAzure : ChannelPick :=
  { channel := { id := 2, type := 3, key := "key-2", openAIOrganization := some "org-2",
                 other := "2024-02-01" } }

def sampleMultiKey : ChannelPick :=
  { channel := { id := 3, type := 1, key := "key-a\nkey-b",
                 channelInfo := { isMultiKey := true, multiKeySize := 2,
                                  multiKeyMode := .random } }
    key := { draw := 1 } }

def sampleMapped (id : ℕ) (mapping : String) : ChannelPick :=
  { channel := { id, type := 1, key := "key", modelMapping := some mapping } }

theorem channel_meta_iff_sample :
    ((run (step sampleChannelEnv .other "m") {} [sampleOpenAI]).attempt sampleChannelEnv .other "m"
      sampleAzure).2 = (({} : ChannelRequest).attempt sampleChannelEnv .other "m" sampleAzure).2 :=
  (channel_meta_iff sampleChannelEnv .other "m" [sampleOpenAI] sampleAzure (by decide)).2
    ⟨.inl (by decide), .inr (by decide), .inl (by decide),
      by decide⟩

/-- What a plain channel is sent with after an Azure channel, the second key of a multi-key channel,
and another channel's mapping. -/
theorem earlier_channels_kept :
    ((run (step sampleChannelEnv .other "m") {} [sampleAzure]).attempt sampleChannelEnv .other "m"
        sampleOpenAI).2.map (fun r => (r.built.organization, r.built.apiVersion)) =
      some ("org-2", "2024-02-01") ∧
    ((run (step sampleChannelEnv .other "m") {} [sampleMultiKey]).attempt sampleChannelEnv .other
        "m" sampleOpenAI).2.map (fun r => r.built.channelMultiKeyIndex) = some 1 ∧
    (({} : ChannelRequest).attempt sampleChannelEnv .other "m" sampleOpenAI).2.map
        (fun r => (r.built.organization, r.built.apiVersion, r.built.channelMultiKeyIndex)) =
      some ("", "", 0) ∧
    ((run (step sampleChannelEnv .responsesCompact "m-openai-compact") {}
        [sampleMapped 4 "\x7b\"m\":\"x\"\x7d"]).attempt sampleChannelEnv .responsesCompact
        "m-openai-compact" (sampleMapped 5 "\x7b\"m\":\"y\"\x7d")).2.bind
        (fun r => r.mapped.bind Except.toOption) = some "x" ∧
    (({} : ChannelRequest).attempt sampleChannelEnv .responsesCompact "m-openai-compact"
        (sampleMapped 5 "\x7b\"m\":\"y\"\x7d")).2.bind
        (fun r => r.mapped.bind Except.toOption) = some "y" := by
  decide

end ChannelRequest

end AggreApi
