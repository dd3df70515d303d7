import AggreApi.RelayRetry

/-!
# The context of the selected channel

`SetupContextForSelectedChannel` writes the selected channel into the request's context,
`InitChannelMeta` reads it back into the meta of the attempt, and `ModelMappedHelper` follows the
model mapping. Context and relay info live as long as the request.
-/

namespace AggreApi

/-! ## Channel types -/

namespace ChannelType

def azure : ℕ := 3

def ali : ℕ := 17

def xunfei : ℕ := 18

def openRouter : ℕ := 20

def gemini : ℕ := 24

def cloudflare : ℕ := 39

def vertexAi : ℕ := 41

def mokaAI : ℕ := 44

def coze : ℕ := 49

end ChannelType

inductive ApiType where
  | openAI | anthropic | paLM | baidu | zhipu | ali | xunfei | aiProxyLibrary | tencent | gemini
  | zhipuV4 | ollama | perplexity | aws | cohere | dify | jina | cloudflare | siliconFlow
  | vertexAi | mistral | deepSeek | mokaAI | volcEngine | baiduV2 | openRouter | xinference | xai
  | coze | jimeng | moonshot | submodel | miniMax | replicate | codex
  deriving DecidableEq, Repr

/-- The cases of `ChannelType2APIType`. -/
def apiTypes : List (ℕ × ApiType) :=
  [(1, .openAI), (14, .anthropic), (15, .baidu), (11, .paLM), (16, .zhipu), (17, .ali),
    (18, .xunfei), (21, .aiProxyLibrary), (23, .tencent), (24, .gemini), (26, .zhipuV4),
    (4, .ollama), (27, .perplexity), (33, .aws), (34, .cohere), (37, .dify), (38, .jina),
    (39, .cloudflare), (40, .siliconFlow), (41, .vertexAi), (42, .mistral), (43, .deepSeek),
    (44, .mokaAI), (45, .volcEngine), (46, .baiduV2), (20, .openRouter), (47, .xinference),
    (48, .xai), (49, .coze), (51, .jimeng), (25, .moonshot), (53, .submodel), (35, .miniMax),
    (56, .replicate), (57, .codex)]

/-- `ChannelType2APIType`: an unknown type is taken for OpenAI. -/
def channelType2APIType (channelType : ℕ) : ApiType × Bool :=
  match apiTypes.lookup channelType with
  | some apiType => (apiType, true)
  | none => (.openAI, false)

def streamSupportedChannels : List ℕ :=
  [1, 14, 33, 24, 39, 3, 45, 4, 48, 43, 46, 26, 17, 53, 57, 25, 35]

def channelBaseURLs : List String :=
  ["", "https://api.openai.com", "https://oa.api2d.net", "", "http://localhost:11434",
    "https://api.openai-sb.com", "https://api.openaimax.com", "https://api.ohmygpt.com", "",
    "https://api.caipacity.com", "https://api.aiproxy.io", "", "https://api.api2gpt.com",
    "https://api.aigc2d.com", "https://api.anthropic.com", "https://aip.baidubce.com",
    "https://open.bigmodel.cn", "https://dashscope.aliyuncs.com", "", "https://api.360.cn",
    "https://openrouter.ai/api", "https://api.aiproxy.io", "https://fastgpt.run/api/openapi",
    "https://hunyuan.tencentcloudapi.com", "https://generativelanguage.googleapis.com",
    "https://api.moonshot.cn", "https://open.bigmodel.cn", "https://api.perplexity.ai", "", "", "",
    "https://api.lingyiwanwu.com", "", "", "https://api.cohere.ai", "https://api.minimax.chat", "",
    "https://api.dify.ai", "https://api.jina.ai", "https://api.cloudflare.com",
    "https://api.siliconflow.cn", "", "https://api.mistral.ai", "https://api.deepseek.com",
    "https://api.moka.ai", "https://ark.cn-beijing.volces.com", "https://qianfan.baidubce.com", "",
    "https://api.x.ai", "https://api.coze.cn", "https://api.klingai.com",
    "https://visual.volcengineapi.com", "https://api.vidu.cn", "https://llm.submodel.ai",
    "https://ark.cn-beijing.volces.com", "https://api.openai.com", "https://api.replicate.com",
    "https://chatgpt.com"]

/-! ## What is read off the channel -/

structure KeyDraw where
  draw : ℕ := 0
  cached : Option ChannelInfo := none

structure KeyPick where
  key : String
  index : ℕ
  pollingIndex : ℤ
  deriving DecidableEq, Repr

namespace Channel

variable (unmarshalRaw : String → Option (List String)) (ch : Channel)

def keyEnabled (idx : ℕ) : Bool :=
  (ch.channelInfo.multiKeyStatusList.lookup idx).getD .enabled = .enabled

def noAvailableKey : RelayError := { errorCode := "channel:no_available_key" }

def getNextEnabledKey (k : KeyDraw) : Except RelayError KeyPick :=
  if !ch.channelInfo.isMultiKey then .ok ⟨ch.key, 0, ch.channelInfo.multiKeyPollingIndex⟩
  else
    let keys := ch.getKeys unmarshalRaw
    match (List.range keys.length).filter ch.keyEnabled with
    | [] => .error noAvailableKey
    | first :: rest =>
      let pick idx := ⟨keys.getD idx "", idx, ch.channelInfo.multiKeyPollingIndex⟩
      match ch.channelInfo.multiKeyMode with
      | .random => .ok (pick ((first :: rest).getD (k.draw % (rest.length + 1)) first))
      | .polling =>
        match k.cached with
        | none => .error { errorCode := "get_channel_failed", skipRetry := true }
        | some info =>
          let start := if info.multiKeyPollingIndex < 0 ∨
            (keys.length : ℤ) ≤ info.multiKeyPollingIndex then 0 else
              info.multiKeyPollingIndex.toNat
          match ((List.range keys.length).map fun i => (start + i) % keys.length).find?
              ch.keyEnabled with
          | some idx => .ok ⟨keys.getD idx "", idx, ((idx + 1) % keys.length : ℕ)⟩
          | none => .ok (pick first)
      | .other => .ok (pick first)

/-- `GetBaseURL`; `none` where the type lies outside the table and the lookup panics. -/
def getBaseURL : Option String :=
  match ch.baseURL with
  | none => some ""
  | some url => if url = "" then channelBaseURLs[ch.type]? else some url

def getModelMapping : String := ch.modelMapping.getD ""

def getStatusCodeMapping : String := ch.statusCodeMapping.getD ""

def namesOrganization : Bool := ch.openAIOrganization.getD "" ≠ ""

end Channel

/-! ## The affinity template -/

/-- `strings.ToLower`, on ASCII letters. -/
def toLower (s : String) : String := String.ofList (s.toList.map Char.toLower)

def isOperationsKey (k : String) : Bool := toLower (trimSpace k) = "operations"

def extractParamOperations : Option Json → Option (List Json)
  | some (.arr ops) => some ops
  | _ => none

/-- One member of the template: what the channel has stays, operations are put before its own. -/
def mergeMember (out : JsonObject) (m : String × Json) : JsonObject :=
  match isOperationsKey m.1, extractParamOperations (some m.2) with
  | true, some tplOps =>
    out.setMember m.1 (.arr (tplOps ++ (extractParamOperations (out.lookup m.1)).getD []))
  | _, _ => if (out.lookup m.1).isSome then out else out.setMember m.1 m.2

def mergeChannelOverride (base tpl : JsonObject) : JsonObject := tpl.foldl mergeMember base

/-! ## The context -/

structure ChannelContext where
  originalModel : String := ""
  channelId : ℕ := 0
  channelName : String := ""
  channelType : ℕ := 0
  channelCreateTime : ℤ := 0
  channelSetting : Json := .obj []
  channelOtherSetting : Json := .obj []
  paramOverride : JsonObject := []
  headerOverride : JsonObject := []
  channelOrganization : String := ""
  autoBan : Bool := false
  modelMapping : String := ""
  statusCodeMapping : String := ""
  channelIsMultiKey : Bool := false
  channelMultiKeyIndex : ℕ := 0
  channelKey : String := ""
  baseUrl : String := ""
  systemPromptOverride : Bool := false
  apiVersion : String := ""
  region : String := ""
  plugin : String := ""
  botId : String := ""

/-- How `SetupContextForSelectedChannel` ends. -/
inductive Setup where
  | done
  | failed (e : RelayError)
  | crashed
  deriving DecidableEq, Repr

/-- What the request brings and what is configured. -/
structure ChannelEnv where
  unmarshalRaw : String → Option (List String)
  unmarshalMap : String → Option (List (String × String))
  containPriceOrRatio : String → Bool
  template : JsonObject := []
  apiVersion : String := ""

variable (env : ChannelEnv) (c : ChannelContext) (info : AttemptInfo) (ch : Channel)

namespace ChannelContext

/-- The entry `Other` of a channel goes to, which depends on the channel's type. -/
def setOther : ChannelContext :=
  if ch.type = ChannelType.azure ∨ ch.type = ChannelType.xunfei ∨ ch.type = ChannelType.gemini ∨
      ch.type = ChannelType.cloudflare ∨ ch.type = ChannelType.mokaAI then
    { c with apiVersion := ch.other }
  else if ch.type = ChannelType.vertexAi then { c with region := ch.other }
  else if ch.type = ChannelType.ali then { c with plugin := ch.other }
  else if ch.type = ChannelType.coze then { c with botId := ch.other }
  else c

def setChannel : ChannelContext :=
  { c with
    channelId := ch.id
    channelName := ch.name
    channelType := ch.type
    channelCreateTime := ch.createdTime
    channelSetting := ch.setting
    channelOtherSetting := ch.otherSettings
    paramOverride := mergeChannelOverride ch.paramOverride env.template
    headerOverride := ch.headerOverride
    channelOrganization :=
      if ch.namesOrganization then ch.openAIOrganization.getD "" else c.channelOrganization
    autoBan := ch.getAutoBan
    modelMapping := ch.getModelMapping
    statusCodeMapping := ch.getStatusCodeMapping }

def setKey (pick : KeyPick) (baseUrl : String) : ChannelContext :=
  { c with
    channelIsMultiKey := ch.channelInfo.isMultiKey
    channelMultiKeyIndex :=
      if ch.channelInfo.isMultiKey then pick.index else c.channelMultiKeyIndex
    channelKey := pick.key
    baseUrl
    systemPromptOverride := false }

def setupContextForSelectedChannel (ch : Option Channel) (k : KeyDraw) (modelName : String) :
    ChannelContext × Setup :=
  let c := { c with originalModel := modelName }
  match ch with
  | none => (c, .failed { errorCode := "get_channel_failed", skipRetry := true })
  | some ch =>
    let c := c.setChannel env ch
    match ch.getNextEnabledKey env.unmarshalRaw k with
    | .error e => (c, .failed e)
    | .ok pick =>
      match ch.getBaseURL with
      | none => (c, .crashed)
      | some baseUrl => ((c.setKey ch pick baseUrl).setOther ch, .done)

end ChannelContext

/-! ## The channel meta -/

structure ChannelMeta where
  channelType : ℕ := 0
  channelId : ℕ := 0
  channelIsMultiKey : Bool := false
  channelMultiKeyIndex : ℕ := 0
  channelBaseUrl : String := ""
  apiType : ApiType := .openAI
  apiVersion : String := ""
  apiKey : String := ""
  organization : String := ""
  channelCreateTime : ℤ := 0
  paramOverride : JsonObject := []
  headersOverride : JsonObject := []
  channelSetting : Json := .obj []
  channelOtherSettings : Json := .obj []
  upstreamModelName : String := ""
  isModelMapped : Bool := false
  supportStreamOptions : Bool := false

structure AttemptInfo where
  originModelName : String
  channelMeta : Option ChannelMeta := none

def getAPIVersion : String := if env.apiVersion = "" then c.apiVersion else env.apiVersion

def newChannelMeta : ChannelMeta where
  channelType := c.channelType
  channelId := c.channelId
  channelIsMultiKey := c.channelIsMultiKey
  channelMultiKeyIndex := c.channelMultiKeyIndex
  channelBaseUrl := c.baseUrl
  apiType := (channelType2APIType c.channelType).1
  apiVersion :=
    if c.channelType = ChannelType.vertexAi then c.region
    else if c.channelType = ChannelType.azure then getAPIVersion env c
    else c.apiVersion
  apiKey := c.channelKey
  organization := c.channelOrganization
  channelCreateTime := c.channelCreateTime
  paramOverride := c.paramOverride
  headersOverride := c.headerOverride
  channelSetting := c.channelSetting
  channelOtherSettings := c.channelOtherSetting
  upstreamModelName := c.originalModel
  supportStreamOptions := c.channelType ∈ streamSupportedChannels

def AttemptInfo.initChannelMeta : AttemptInfo :=
  { info with channelMeta := some (newChannelMeta env c) }

/-! ## The model mapping -/

def compactModelSuffix : String := "-openai-compact"

def hasSuffix (s tail : String) : Bool := tail.toList.isSuffixOf s.toList

def trimSuffix (s tail : String) : String :=
  if hasSuffix s tail then String.ofList (s.toList.take (s.toList.length - tail.toList.length))
  else s

def withCompactModelSuffix (modelName : String) : String :=
  if hasSuffix modelName compactModelSuffix then modelName else modelName ++ compactModelSuffix

inductive Redirect where
  | origin
  | model (name : String) (mapped : Bool)
  | cycle
  deriving DecidableEq, Repr

/-- The loop of `ModelMappedHelper`. -/
def followMapping (modelMap : List (String × String)) (originName : String) :
    ℕ → String → List String → Bool → Option Redirect
  | 0, _, _, _ => none
  | fuel + 1, current, visited, mapped =>
    match modelMap.lookup current with
    | none => some (.model current mapped)
    | some next =>
      if next = "" then some (.model current mapped)
      else if next ∈ visited then
        if next = current then
          if current = originName then some .origin else some (.model current true)
        else some .cycle
      else followMapping modelMap originName fuel next (next :: visited) true

/-- The whole walk, from the name to map. A mapping of `n` entries is walked in at most `n + 1`
rounds. -/
def redirect (modelMap : List (String × String)) (originName name : String) : Option Redirect :=
  followMapping modelMap originName (modelMap.length + 1) name [name] false

namespace AttemptInfo

def setUpstream (name : String) (mapped : Bool) : AttemptInfo :=
  let m := info.channelMeta.getD {}
  { info with channelMeta := some { m with upstreamModelName := name, isModelMapped := mapped } }

/-- The end of `ModelMappedHelper`; in compact mode the origin model is renamed as well. -/
def finishMapping (compact : Bool) (mappingName : String) (info : AttemptInfo) : AttemptInfo :=
  if compact then
    let m := info.channelMeta.getD {}
    let final := if m.isModelMapped ∧ m.upstreamModelName ≠ "" then m.upstreamModelName
      else mappingName
    { info.setUpstream final m.isModelMapped with
      originModelName := withCompactModelSuffix final }
  else info

def modelMappedHelper (compact : Bool) (modelMapping : String) (info : AttemptInfo) :
    AttemptInfo × Option String :=
  let m := info.channelMeta.getD {}
  let mappingName :=
    if compact then trimSuffix info.originModelName compactModelSuffix else info.originModelName
  if modelMapping = "" ∨ modelMapping = "\x7b\x7d" then
    (info.finishMapping compact mappingName, none)
  else
    match env.unmarshalMap modelMapping with
    | none => (info, some "unmarshal_model_mapping_failed")
    | some modelMap =>
      match redirect modelMap info.originModelName mappingName with
      | some .origin => (info.setUpstream m.upstreamModelName false, none)
      | some (.model name true) =>
        ((info.setUpstream name true).finishMapping compact mappingName, none)
      | some (.model _ false) => (info.finishMapping compact mappingName, none)
      | _ => (info.setUpstream m.upstreamModelName true, some "model_mapping_contains_cycle")

end AttemptInfo

/-! ## The attempts of a request -/

inductive RelayHandler where
  | responsesCompact
  | gemini (noThinking : Bool)
  | realtime
  | other
  deriving DecidableEq, Repr

structure AttemptRecord where
  built : ChannelMeta
  mapped : Option (Except String String)

namespace AttemptInfo

/-- The Gemini handler: a request without thinking is priced and sent as the no-thinking model if
that one has a price. -/
def dropThinking : AttemptInfo :=
  let name := info.originModelName ++ "-nothinking"
  if contains info.originModelName "-nothinking" || !env.containPriceOrRatio name then info
  else
    let m := info.channelMeta.getD {}
    { info with originModelName := name, channelMeta := some { m with upstreamModelName := name } }

def mappedName (r : AttemptInfo × Option String) : Except String String :=
  match r.2 with
  | none => .ok (r.1.channelMeta.getD {}).upstreamModelName
  | some e => .error e

def enterHandler (handler : RelayHandler) (c : ChannelContext) (info : AttemptInfo) :
    AttemptInfo × AttemptRecord :=
  let built := newChannelMeta env c
  let info := info.initChannelMeta env c
  match handler with
  | .realtime => (info, ⟨built, none⟩)
  | .other =>
    let r := info.modelMappedHelper env false c.modelMapping
    (r.1, ⟨built, some (mappedName r)⟩)
  | .responsesCompact =>
    if built.apiType = .openAI ∨ built.apiType = .codex then
      let r := info.modelMappedHelper env true c.modelMapping
      (r.1, ⟨built, some (mappedName r)⟩)
    else (info, ⟨built, none⟩)
  | .gemini noThinking =>
    let r := info.modelMappedHelper env false c.modelMapping
    (if noThinking ∧ r.2 = none then r.1.dropThinking env else r.1, ⟨built, some (mappedName r)⟩)

end AttemptInfo

structure ChannelPick where
  channel : Channel
  key : KeyDraw := {}

structure ChannelRequest where
  ctx : ChannelContext := {}
  info : Option AttemptInfo := none
  ended : Bool := false

namespace ChannelRequest

variable (env : ChannelEnv) (handler : RelayHandler) (modelName : String) (s : ChannelRequest)

/-- `Distribute` passes the request's model name, `getChannel` the origin model name. -/
def setupName : String :=
  match s.info with
  | none => modelName
  | some info => info.originModelName

/-- The selection of a channel and the beginning of its attempt. `Distribute` goes on where the
setup fails, `getChannel` ends the request. -/
def attempt (p : ChannelPick) : ChannelRequest × Option AttemptRecord :=
  if s.ended then (s, none)
  else
    let r := s.ctx.setupContextForSelectedChannel env (some p.channel) p.key
      (s.setupName modelName)
    if r.2 = .crashed ∨ (s.info.isSome ∧ r.2 ≠ .done) then
      ({ s with ctx := r.1, ended := true }, none)
    else
      let info := s.info.getD { originModelName := r.1.originalModel }
      let h := info.enterHandler env handler r.1
      ({ s with ctx := r.1, info := some h.1 }, some h.2)

def step (p : ChannelPick) : ChannelRequest := (s.attempt env handler modelName p).1

end ChannelRequest

end AggreApi
