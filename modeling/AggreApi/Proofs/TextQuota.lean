import AggreApi.Proofs.ParamOverride
import AggreApi.TextQuota

/-!
# Charges and earlier attempts

The quota of a text request depends on what earlier attempts recorded through one question only:
whether the format of the upstream request counts as Claude's, and that only where the usage does
not name its semantic. A compaction request is besides priced by its origin model name.
-/

namespace AggreApi

def BodyRoute.recorded : BodyRoute → Option RelayFormat
  | .passThrough => none
  | .notConverted => none
  | .converted request => guessRelayFormatFromRequest request
  | .viaResponses none => some .openAIResponses
  | .viaResponses (some request) =>
    (guessRelayFormatFromRequest request).or (some .openAIResponses)

namespace FormatInfo

variable (f : FormatInfo) (p : TextPass)

def lastConversion : RelayFormat := f.requestConversionChain.getLast?.getD f.relayFormat

def Keeps : Prop :=
  p.entersClaude = true ∨
    (f.finalRequestRelayFormat.getD (p.route.recorded.getD f.lastConversion) = .claude ↔
      p.route.recorded.getD f.relayFormat = .claude)

instance : Decidable (f.Keeps p) := inferInstanceAs (Decidable (_ ∨ _))

variable (format : RelayFormat) (request : ConvertedRequest) (route : BodyRoute)

theorem append_relayFormat :
    (f.appendRequestConversion format).relayFormat = f.relayFormat := by
  rw [appendRequestConversion]
  split_ifs <;> rfl

theorem append_final :
    (f.appendRequestConversion format).finalRequestRelayFormat = f.finalRequestRelayFormat := by
  rw [appendRequestConversion]
  split_ifs <;> rfl

theorem append_lastConversion :
    (f.appendRequestConversion format).lastConversion = format := by
  rw [appendRequestConversion, lastConversion]
  split_ifs with h
  · rw [h]
    rfl
  · simp

theorem appendFrom_relayFormat :
    (f.appendRequestConversionFromRequest request).relayFormat = f.relayFormat := by
  rw [appendRequestConversionFromRequest]
  split
  · rfl
  · exact f.append_relayFormat _

theorem appendFrom_final :
    (f.appendRequestConversionFromRequest request).finalRequestRelayFormat =
      f.finalRequestRelayFormat := by
  rw [appendRequestConversionFromRequest]
  split
  · rfl
  · exact f.append_final _

theorem appendFrom_lastConversion :
    (f.appendRequestConversionFromRequest request).lastConversion =
      (guessRelayFormatFromRequest request).getD f.lastConversion := by
  rw [appendRequestConversionFromRequest]
  split
  · rename_i h
    rw [h]
    rfl
  · rename_i format h
    rw [h, append_lastConversion]
    rfl

theorem convert_relayFormat :
    (f.convert route).relayFormat = f.relayFormat := by
  rcases route with _ | request | _ | _ | request
  · rfl
  · exact f.appendFrom_relayFormat request
  · rfl
  · exact f.append_relayFormat _
  · exact (appendFrom_relayFormat _ request).trans (f.append_relayFormat _)

theorem convert_final :
    (f.convert route).finalRequestRelayFormat = f.finalRequestRelayFormat := by
  rcases route with _ | request | _ | _ | request
  · rfl
  · exact f.appendFrom_final request
  · rfl
  · exact f.append_final _
  · exact (appendFrom_final _ request).trans (f.append_final _)

theorem convert_lastConversion :
    (f.convert route).lastConversion = route.recorded.getD f.lastConversion := by
  rcases route with _ | request | _ | _ | request
  · rfl
  · exact f.appendFrom_lastConversion request
  · rfl
  · exact f.append_lastConversion _
  · rw [convert, appendFrom_lastConversion, append_lastConversion, BodyRoute.recorded]
    cases guessRelayFormatFromRequest request <;> rfl

theorem pass_relayFormat : (f.pass p).relayFormat = f.relayFormat := by
  rw [pass]
  split_ifs <;> exact f.convert_relayFormat p.route

theorem pass_format : (f.pass p).getFinalRequestRelayFormat = if p.entersClaude then .claude
    else f.finalRequestRelayFormat.getD (p.route.recorded.getD f.lastConversion) := by
  rw [pass]
  split_ifs
  · rfl
  · rw [getFinalRequestRelayFormat, convert_final, ← convert_lastConversion]
    rfl

theorem pass_gen_format : ((gen format).pass p).getFinalRequestRelayFormat =
    if p.entersClaude then .claude else p.route.recorded.getD format := by
  have hlast : (gen format).lastConversion = format := by
    rw [gen, lastConversion]
    split_ifs <;> rfl
  rw [pass_format, hlast]
  rfl

theorem claude_iff_keeps : ((f.pass p).getFinalRequestRelayFormat = .claude ↔
    ((gen f.relayFormat).pass p).getFinalRequestRelayFormat = .claude) ↔ f.Keeps p := by
  rw [pass_format, pass_gen_format, Keeps]
  split_ifs with h
  · simp [h]
  · simp [h]

end FormatInfo

def Served.NamesSemantic (served : Served) : Prop :=
  (served.usage.map Usage.usageSemantic).getD "" ≠ ""

instance (served : Served) : Decidable served.NamesSemantic := inferInstanceAs (Decidable (_ ≠ _))

namespace QuotaInfo

variable (setting : QuotaSetting) (info : QuotaInfo) (served : Served)

def withFormat (format : FormatInfo) : QuotaInfo := { info with format }

theorem semantic_of_names (h : served.NamesSemantic) :
    info.usageSemanticFromUsage served.usage = (served.usage.map Usage.usageSemantic).getD "" :=
  if_pos h

theorem semantic_of_not_names (h : ¬ served.NamesSemantic) :
    info.usageSemanticFromUsage served.usage =
      if info.format.getFinalRequestRelayFormat = .claude then "anthropic" else "openai" :=
  if_neg h

theorem semantic_eq_iff (format : FormatInfo) :
    (info.withFormat format).usageSemanticFromUsage served.usage =
        info.usageSemanticFromUsage served.usage ↔
      served.NamesSemantic ∨ (format.getFinalRequestRelayFormat = .claude ↔
        info.format.getFinalRequestRelayFormat = .claude) := by
  by_cases h : served.NamesSemantic
  · rw [semantic_of_names _ _ h, semantic_of_names _ _ h]
    simp [h]
  · rw [semantic_of_not_names _ _ h, semantic_of_not_names _ _ h]
    by_cases hnew : format.getFinalRequestRelayFormat = .claude <;>
      by_cases hold : info.format.getFinalRequestRelayFormat = .claude <;>
      simp [withFormat, h, hnew, hold]

theorem legacy_of_names (h : served.NamesSemantic) :
    info.isLegacyClaudeDerivedOpenAIUsage (info.billedUsage served) = false := by
  cases husage : served.usage with
  | none =>
    rw [Served.NamesSemantic, husage] at h
    exact absurd rfl h
  | some =>
    rw [Served.NamesSemantic, husage] at h
    simp only [isLegacyClaudeDerivedOpenAIUsage, billedUsage, husage, Option.getD_some]
    split_ifs with _ hnamed
    · rfl
    · rfl
    · exact absurd (.inr h) hnamed

theorem summary_withFormat {format : FormatInfo}
    (h : served.NamesSemantic ∨ (format.getFinalRequestRelayFormat = .claude ↔
      info.format.getFinalRequestRelayFormat = .claude)) :
    (info.withFormat format).calculateTextQuotaSummary setting served =
      info.calculateTextQuotaSummary setting served := by
  have hsemantic := (info.semantic_eq_iff served format).2 h
  have hlegacy :
      (info.withFormat format).isLegacyClaudeDerivedOpenAIUsage (info.billedUsage served) =
        info.isLegacyClaudeDerivedOpenAIUsage (info.billedUsage served) := by
    rcases h with h | h
    · rw [legacy_of_names info served h]
      exact legacy_of_names (info.withFormat format) served h
    · simp [isLegacyClaudeDerivedOpenAIUsage, withFormat, h]
  have husage : (info.withFormat format).billedUsage served = info.billedUsage served := rfl
  simp only [calculateTextQuotaSummary, hsemantic, husage, hlegacy]
  rfl

end QuotaInfo

/-- The origin model name that an attempt makes of the one it finds. -/
def servedName (env : ChannelEnv) (handler : RelayHandler) (mapping name : String) : String :=
  match handler with
  | .responsesCompact =>
    (({ originModelName := name } : AttemptInfo).modelMappedHelper env true
      mapping).1.originModelName
  | .gemini true => if AttemptInfo.keepsThinking env name then name else name ++ "-nothinking"
  | _ => name

theorem servedName_servedName {env : ChannelEnv} {handler : RelayHandler}
    (hne : handler ≠ .responsesCompact) (mapping mapping' name : String) :
    servedName env handler mapping (servedName env handler mapping' name) =
      servedName env handler mapping name := by
  cases handler with
  | responsesCompact => exact absurd rfl hne
  | realtime => rfl
  | other => rfl
  | gemini noThinking =>
    cases noThinking with
    | false => rfl
    | true =>
      have hcontains : contains (name ++ "-nothinking") "-nothinking" = true := by
        rw [contains_iff, String.toList_append]
        exact (List.suffix_append _ _).isInfix
      have hkeeps : AttemptInfo.keepsThinking env (name ++ "-nothinking") = true := by
        rw [AttemptInfo.keepsThinking, hcontains, Bool.true_or]
      simp only [servedName]
      split_ifs
      · rfl
      · rfl

namespace AttemptInfo

variable {env : ChannelEnv} {handler : RelayHandler}

variable (info : AttemptInfo) (mapping : String)

theorem modelMappedHelper_originModelName :
    (info.modelMappedHelper env false mapping).1.originModelName = info.originModelName := by
  simp only [modelMappedHelper, finishMapping, Bool.false_eq_true, if_false]
  split
  · rfl
  · split
    · rfl
    · split <;> rfl

theorem modelMappedHelper_compact
    (h : (info.channelMeta.getD {}).isModelMapped = false) :
    (info.modelMappedHelper env true mapping).1.originModelName =
      servedName env .responsesCompact mapping info.originModelName := by
  simp only [servedName, modelMappedHelper, finishMapping, setUpstream, h, if_true]
  split
  · simp
  · split
    · rfl
    · split
      · rfl
      · rfl
      · simp
      · rfl

theorem dropThinking_originModelName :
    (info.dropThinking env).originModelName =
      servedName env (.gemini true) mapping info.originModelName := by
  rcases @dropThinking_cases env info with ⟨hkeep, hdrop⟩ | ⟨hkeep, hdrop⟩
  · rw [hdrop, servedName, if_pos hkeep]
  · rw [hdrop, servedName, if_neg (by simp [hkeep])]

theorem enterHandler_originModelName (c : ChannelContext) (info : AttemptInfo) :
    (info.enterHandler env handler c).1.originModelName =
      servedName env handler c.modelMapping info.originModelName ∨
    (info.enterHandler env handler c).1.originModelName = info.originModelName ∧
      ∀ name, (info.enterHandler env handler c).2.mapped ≠ some (.ok name) := by
  have hmapped := @modelMappedHelper_originModelName env (info.initChannelMeta env c) c.modelMapping
  cases handler with
  | realtime => exact .inl rfl
  | other => exact .inl hmapped
  | responsesCompact =>
    simp only [enterHandler]
    split
    · exact .inl (modelMappedHelper_compact _ _ rfl)
    · exact .inr ⟨rfl, fun name => by simp⟩
  | gemini noThinking =>
    simp only [enterHandler]
    cases noThinking with
    | false => exact .inl hmapped
    | true =>
      split_ifs with hnone
      · rw [dropThinking_originModelName _ c.modelMapping, hmapped]
        exact .inl rfl
      · refine .inr ⟨hmapped, fun name => ?_⟩
        cases herror : ((info.initChannelMeta env c).modelMappedHelper env false
            c.modelMapping).2 with
        | none => exact absurd ⟨rfl, herror⟩ hnone
        | some e => simp [mappedName, herror]

end AttemptInfo

theorem ChannelContext.setup_originalModel (env : ChannelEnv) (c : ChannelContext) (ch : Channel)
    (k : KeyDraw) (name : String) :
    (c.setupContextForSelectedChannel env (some ch) k name).1.originalModel = name := by
  simp only [setupContextForSelectedChannel]
  split
  · rfl
  · split
    · rfl
    · exact afterSetup_originalModel c name

namespace ChannelRequest

variable (env : ChannelEnv) (handler : RelayHandler) (modelName : String)

theorem step_setupName (s : ChannelRequest) (p : ChannelPick) :
    (s.step env handler modelName p).setupName modelName = s.setupName modelName ∨
    ∃ (c : ChannelContext) (info : AttemptInfo), info.originModelName = s.setupName modelName ∧
      (s.step env handler modelName p).setupName modelName =
        (info.enterHandler env handler c).1.originModelName := by
  simp only [step, attempt]
  split_ifs
  · exact .inl rfl
  · exact .inl rfl
  · refine .inr ⟨_, _, ?_, rfl⟩
    rw [ChannelContext.setup_originalModel]
    exact s.getD_originModelName modelName

theorem servedName_run (hne : handler ≠ .responsesCompact) (mapping : String)
    (pre : List ChannelPick) :
    servedName env handler mapping ((run (step env handler modelName) {} pre).setupName modelName) =
      servedName env handler mapping modelName := by
  refine run_inv (I := fun s : ChannelRequest => servedName env handler mapping
    (s.setupName modelName) = servedName env handler mapping modelName) (fun s p h => ?_) ?_ pre
  swap
  · simp [setupName]
  rcases step_setupName env handler modelName s p with hname | ⟨c, info, hinfo, hname⟩
  · rwa [hname]
  · rw [hname]
    rcases AttemptInfo.enterHandler_originModelName c info with horigin | ⟨horigin, -⟩
    · rw [horigin, servedName_servedName hne, hinfo, h]
    · rw [horigin, hinfo, h]

end ChannelRequest

namespace TextRequest

variable (env : TextEnv)

theorem enter_base (s : TextRequest) (p : TextPass) :
    (s.enter env p).1 = s.base.step env.channel env.handler env.modelName p.pick := by
  simp only [enter]
  split <;> rfl

theorem step_cases (s : TextRequest) (p : TextPass) :
    (s.step env p).base = s.base.step env.channel env.handler env.modelName p.pick ∧
      ((s.step env p).format = s.format ∨ (s.step env p).format = s.format.pass p) := by
  rw [← enter_base env s p]
  simp only [step]
  split
  · rename_i h
    rw [h]
    exact ⟨rfl, .inl rfl⟩
  · rename_i h
    rw [h]
    exact ⟨rfl, .inr rfl⟩

variable (ps : List TextPass)

theorem run_base : ∀ s : TextRequest, (run (step env) s ps).base =
      run (ChannelRequest.step env.channel env.handler env.modelName) s.base (ps.map (·.pick)) := by
  induction ps with
  | nil => intro s; rfl
  | cons p _ ih =>
    intro s
    rw [run_cons, ih, (step_cases env s p).1, List.map_cons, run_cons]

theorem run_relayFormat :
    (run (step env) (start env) ps).format.relayFormat = env.relayFormat := by
  refine run_inv (I := fun s : TextRequest => s.format.relayFormat = env.relayFormat)
    (fun s p h => ?_) rfl ps
  rcases (step_cases env s p).2 with hformat | hformat
  · rw [hformat, h]
  · rw [hformat, FormatInfo.pass_relayFormat, h]

def billedName (s : TextRequest) (p : TextPass) : String :=
  servedName env.channel env.handler p.pick.channel.getModelMapping
    (s.base.setupName env.modelName)

def billedInfo (s : TextRequest) (p : TextPass) (groupRatio : ℚ) (price : PriceData) :
    QuotaInfo where
  originModelName := s.billedName env p
  format := s.format.pass p
  channelType := p.pick.channel.type
  price := price
  groupRatio := groupRatio
  estimatePromptTokens := env.estimatePromptTokens

variable {env}

variable {s : TextRequest} {p : TextPass} {pick : KeyPick} {baseUrl : String}

theorem enter_of_key
    {info : AttemptInfo} (hlive : s.base.ended = false)
    (hkey : p.pick.channel.getNextEnabledKey env.channel.unmarshalRaw p.pick.key = .ok pick)
    (hurl : p.pick.channel.getBaseURL = some baseUrl) (h : (s.enter env p).2 = some info) :
    info.originModelName = s.billedName env p ∧
      (info.channelMeta.getD {}).channelType = p.pick.channel.type := by
  simp only [enter, ChannelRequest.attempt_of_key env.channel env.handler env.modelName hlive hkey
    hurl, ChannelRequest.enter] at h
  split at h
  · rename_i record name hrecord
    rw [Option.some.injEq] at h hrecord
    rw [← h]
    constructor
    · rcases AttemptInfo.enterHandler_originModelName _ _ with horigin | ⟨-, hstop⟩
      · rw [horigin, ChannelRequest.setupContext_modelMapping, ChannelRequest.getD_originModelName,
          billedName]
      · refine absurd ?_ (hstop name)
        rw [hrecord]
    · rw [AttemptInfo.enterHandler_field (f := ChannelMeta.channelType) (fun _ _ _ => rfl)]
      exact ChannelContext.afterSetup_channelType _ _
  · cases h

variable {served : Served} {groupRatio : ℚ} {q : TextQuotaSummary}

theorem serve_of_key (hlive : s.base.ended = false)
    (hkey : p.pick.channel.getNextEnabledKey env.channel.unmarshalRaw p.pick.key = .ok pick)
    (hurl : p.pick.channel.getBaseURL = some baseUrl)
    (h : s.serve env p served groupRatio = some q) :
    ∃ price, env.priceOf (s.billedName env p) = some price ∧
      q = (s.billedInfo env p groupRatio price).calculateTextQuotaSummary env.setting served := by
  simp only [serve] at h
  split at h
  · split at h
    · cases h
    · rename_i info hinfo
      obtain ⟨hname, htype⟩ := enter_of_key hlive hkey hurl hinfo
      rw [hname, htype, Option.map_eq_some_iff] at h
      obtain ⟨price, hprice, hq⟩ := h
      exact ⟨price, hprice, hq.symm⟩
  · cases h

theorem attempt_of_serve (h : s.serve env p served groupRatio = some q) :
    (s.base.attempt env.channel env.handler env.modelName p.pick).2.isSome := by
  simp only [serve, enter] at h
  split at h
  · cases hrecord : (s.base.attempt env.channel env.handler env.modelName p.pick).2 with
    | none => simp [hrecord] at h
    | some => rfl
  · cases h

variable (env)

theorem billedName_run (p : TextPass) (h : env.handler = .responsesCompact →
      (run (step env) (start env) ps).billedName env p = (start env).billedName env p) :
    (run (step env) (start env) ps).billedName env p = (start env).billedName env p := by
  by_cases hcompact : env.handler = .responsesCompact
  · exact h hcompact
  · rw [billedName, run_base]
    exact ChannelRequest.servedName_run _ _ _ hcompact _ _

/-- The attempt that serves a request is charged as it would be as the first one, exactly if its
semantic is named or read off rightly and a compaction request is billed under the same name. -/
theorem charge_isolated_iff (ps : List TextPass) (p : TextPass) (served : Served) (groupRatio : ℚ)
    {q q' : TextQuotaSummary}
    (hq : (run (step env) (start env) ps).serve env p served groupRatio = some q)
    (hq' : (start env).serve env p served groupRatio = some q') :
    (q.quota = q'.quota ∧ q.usageSemantic = q'.usageSemantic ∧
        (env.handler = .responsesCompact → q.modelName = q'.modelName)) ↔
      (served.NamesSemantic ∨ (run (step env) (start env) ps).format.Keeps p) ∧
      (env.handler = .responsesCompact →
        (run (step env) (start env) ps).billedName env p = (start env).billedName env p) := by
  have hkeeps := (run (step env) (start env) ps).format.claude_iff_keeps p
  rw [run_relayFormat] at hkeeps
  have hmade := attempt_of_serve hq
  have hlive := ChannelRequest.live_of_attempt _ _ _ hmade
  have hstarted := ChannelRequest.started_of_run env.channel env.handler env.modelName
    ((congrArg ChannelRequest.ended (run_base env ps (start env))).symm.trans hlive)
  rw [← show (start env).base = {} from rfl, ← run_base] at hstarted
  rcases hstarted with hnil | hinfo
  · obtain rfl := List.map_eq_nil_iff.1 hnil
    obtain rfl : q = q' := Option.some.inj (hq.symm.trans hq')
    exact ⟨fun _ => ⟨.inr (hkeeps.1 Iff.rfl), fun _ => rfl⟩, fun _ => ⟨rfl, rfl, fun _ => rfl⟩⟩
  · obtain ⟨pick, baseUrl, hkey, hurl⟩ := ChannelRequest.setup_of_attempt _ _ _ hinfo hmade
    obtain ⟨price, hprice, rfl⟩ := serve_of_key hlive hkey hurl hq
    obtain ⟨price', hprice', rfl⟩ := serve_of_key rfl hkey hurl hq'
    have hbilled : ∀ hname : (run (step env) (start env) ps).billedName env p =
          (start env).billedName env p,
        (run (step env) (start env) ps).billedInfo env p groupRatio price =
          ((start env).billedInfo env p groupRatio price').withFormat
            ((run (step env) (start env) ps).format.pass p) := by
      intro hname
      rw [hname, hprice', Option.some.injEq] at hprice
      rw [billedInfo, hname, hprice]
      rfl
    rw [← hkeeps]
    constructor
    · rintro ⟨-, hsemantic, hname⟩
      refine ⟨?_, hname⟩
      rw [hbilled (billedName_run env ps p hname)] at hsemantic
      exact (QuotaInfo.semantic_eq_iff _ _ _).1 hsemantic
    · rintro ⟨hformat, hname⟩
      have hsame := QuotaInfo.summary_withFormat env.setting
        ((start env).billedInfo env p groupRatio price') served hformat
      rw [hbilled (billedName_run env ps p hname), hsame]
      exact ⟨rfl, rfl, fun _ => rfl⟩

end TextRequest

def sampleTextEnv : TextEnv where
  channel := ChannelRequest.sampleChannelEnv
  handler := .other
  modelName := "gpt-4o"
  relayFormat := .openAI
  setting := { quotaPerUnit := 500000, defaultModelRatio := fun _ => none }
  price := fun _ => some { modelRatio := 1, completionRatio := 1, cacheRatio := 1 / 2 }

def sampleClaudePass (answered : Bool) : TextPass where
  pick := { channel := { id := 2, type := 14, key := "key-2" } }
  route := .converted .claude
  answered := answered
  claude := true

def sampleOpenAIPass (route : BodyRoute) : TextPass where
  pick := ChannelRequest.sampleOpenAI
  route := route

def sampleServed : Served where
  usage := some { promptTokens := 1000, completionTokens := 10, cachedTokens := 800 }

namespace TextRequest

theorem charge_isolated_iff_sample : ∃ q q',
    (run (step sampleTextEnv) (start sampleTextEnv) [sampleClaudePass false]).serve sampleTextEnv
        (sampleOpenAIPass (.converted .generalOpenAI)) sampleServed 1 = some q ∧
    (start sampleTextEnv).serve sampleTextEnv (sampleOpenAIPass (.converted .generalOpenAI))
        sampleServed 1 = some q' ∧
    q.quota = q'.quota ∧ q.usageSemantic = q'.usageSemantic := by
  obtain ⟨q, hq⟩ := Option.isSome_iff_exists.1 (by decide :
    ((run (step sampleTextEnv) (start sampleTextEnv) [sampleClaudePass false]).serve sampleTextEnv
      (sampleOpenAIPass (.converted .generalOpenAI)) sampleServed 1).isSome)
  obtain ⟨q', hq'⟩ := Option.isSome_iff_exists.1 (by decide :
    ((start sampleTextEnv).serve sampleTextEnv (sampleOpenAIPass (.converted .generalOpenAI))
      sampleServed 1).isSome)
  have h := (charge_isolated_iff sampleTextEnv _ _ _ _ hq hq').2 ⟨by decide, nofun⟩
  exact ⟨q, q', hq, hq', h.1, h.2.1⟩

/-- After a Claude channel whose answer was lost, an OpenAI channel is charged for cached tokens
twice. -/
theorem cached_tokens_charged_twice :
    ((run (step sampleTextEnv) (start sampleTextEnv) [sampleClaudePass true]).serve sampleTextEnv
        (sampleOpenAIPass (.converted .generalOpenAI)) sampleServed 1).map
      (fun q => (q.quota, q.usageSemantic)) = some (1410, "anthropic") ∧
    ((run (step sampleTextEnv) (start sampleTextEnv) [sampleClaudePass false]).serve sampleTextEnv
        (sampleOpenAIPass .passThrough) sampleServed 1).map
      (fun q => (q.quota, q.usageSemantic)) = some (1410, "anthropic") ∧
    ∀ route ∈ [.converted .generalOpenAI, .passThrough],
      ((start sampleTextEnv).serve sampleTextEnv (sampleOpenAIPass route) sampleServed 1).map
        (fun q => (q.quota, q.usageSemantic)) = some (610, "openai") := by
  decide +kernel

end TextRequest

end AggreApi
