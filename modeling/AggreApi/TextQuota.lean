import AggreApi.ChannelContext

/-!
# The quota of a text request

`calculateTextQuotaSummary` turns the usage that a channel reports into quota. Whether cached tokens
lie inside or outside the prompt tokens is told by the usage's semantic or, where it names none, by
the format the request was sent in, which the handlers record in the relay info. Amounts are exact.
-/

namespace AggreApi

/-! ## Formats -/

inductive RelayFormat where
  | openAI
  | claude
  | gemini
  | openAIResponses
  | openAIResponsesCompaction
  | openAIAudio
  | openAIImage
  | openAIRealtime
  | rerank
  | embedding
  | task
  | mjProxy
  deriving DecidableEq, Repr

inductive ConvertedRequest where
  | generalOpenAI
  | openAIResponses
  | claude
  | geminiChat
  | embedding
  | rerank
  | image
  | audio
  | other
  deriving DecidableEq, Repr

def guessRelayFormatFromRequest : ConvertedRequest → Option RelayFormat
  | .generalOpenAI => some .openAI
  | .openAIResponses => some .openAIResponses
  | .claude => some .claude
  | .geminiChat => some .gemini
  | .embedding => some .embedding
  | .rerank => some .rerank
  | .image => some .openAIImage
  | .audio => some .openAIAudio
  | .other => none

structure FormatInfo where
  relayFormat : RelayFormat
  requestConversionChain : List RelayFormat := []
  finalRequestRelayFormat : Option RelayFormat := none
  deriving DecidableEq, Repr

namespace FormatInfo

variable (info : FormatInfo)

/-- `GenRelayInfo`, with `InitRequestConversionChain`: a compaction request returns before it. -/
def gen (format : RelayFormat) : FormatInfo where
  relayFormat := format
  requestConversionChain := if format = .openAIResponsesCompaction then [] else [format]

def appendRequestConversion (format : RelayFormat) : FormatInfo :=
  if info.requestConversionChain.getLast? = some format then info
  else { info with requestConversionChain := info.requestConversionChain ++ [format] }

def appendRequestConversionFromRequest (request : ConvertedRequest) : FormatInfo :=
  match guessRelayFormatFromRequest request with
  | none => info
  | some format => info.appendRequestConversion format

def getFinalRequestRelayFormat : RelayFormat :=
  info.finalRequestRelayFormat.getD (info.requestConversionChain.getLast?.getD info.relayFormat)

end FormatInfo

/-! ## Usage and prices -/

/-- `dto.Usage`, as far as the quota depends on it. -/
structure Usage where
  promptTokens : ℤ := 0
  completionTokens : ℤ := 0
  usageSemantic : String := ""
  usageSource : String := ""
  cachedTokens : ℤ := 0
  cachedCreationTokens : ℤ := 0
  audioTokens : ℤ := 0
  imageTokens : ℤ := 0
  claudeCacheCreation5mTokens : ℤ := 0
  claudeCacheCreation1hTokens : ℤ := 0
  cost : ℚ := 0

/-- `types.PriceData`, as far as the quota depends on it, without the group ratio. -/
structure PriceData where
  usePrice : Bool := false
  modelPrice : ℚ := 0
  modelRatio : ℚ := 0
  completionRatio : ℚ := 0
  cacheRatio : ℚ := 0
  cacheCreationRatio : ℚ := 0
  cacheCreation5mRatio : ℚ := 0
  cacheCreation1hRatio : ℚ := 0
  imageRatio : ℚ := 0
  otherRatios : List ℚ := []

/-- `quotaPerUnit` and the default ratio of each model. -/
structure QuotaSetting where
  quotaPerUnit : ℚ
  defaultModelRatio : String → Option ℚ

/-- Half away from zero, as `math.Round` and `Decimal.Round` do. -/
def roundHalfAway (x : ℚ) : ℤ := if 0 ≤ x then ⌊x + 1 / 2⌋ else ⌈x - 1 / 2⌉

def getWebSearchPricePerThousand (modelName : String) : ℚ :=
  if startsWith "o3" modelName || startsWith "o4" modelName || startsWith "gpt-5" modelName then 10
  else 25

def claudeWebSearchPricePerThousand : ℚ := 10

def fileSearchPricePerThousand : ℚ := 5 / 2

def getGeminiInputAudioPricePerMillionTokens (modelName : String) : ℚ :=
  if startsWith "gemini-2.5-flash-preview-native-audio" modelName then 3
  else if startsWith "gemini-2.5-flash-preview-lite" modelName then 1 / 2
  else if startsWith "gemini-2.5-flash-preview" modelName then 1
  else if startsWith "gemini-2.5-flash" modelName then 1
  else if startsWith "gemini-2.0-flash" modelName then 7 / 10
  else if startsWith "gemini-robotics-er-1.5" modelName then 1
  else 0

def getGPTImage1PriceOnceCall (quality size : String) : ℚ :=
  let large := size = "1024x1536" ∨ size = "1536x1024"
  if ¬ (size = "1024x1024" ∨ large) then 167 / 1000
  else if quality = "low" then if large then 16 / 1000 else 11 / 1000
  else if quality = "medium" then if large then 63 / 1000 else 42 / 1000
  else if quality = "high" then if large then 1 / 4 else 167 / 1000
  else 167 / 1000

def QuotaSetting.hasCustomModelRatio (setting : QuotaSetting) (modelName : String)
    (currentRatio : ℚ) : Bool :=
  match setting.defaultModelRatio modelName with
  | none => true
  | some defaultRatio => currentRatio ≠ defaultRatio

def QuotaSetting.calcOpenRouterCacheCreateTokens (setting : QuotaSetting) (usage : Usage)
    (price : PriceData) : ℤ :=
  if price.cacheCreationRatio = 1 then 0
  else
    let quotaPrice := price.modelRatio / setting.quotaPerUnit
    let promptCacheCreatePrice := quotaPrice * price.cacheCreationRatio
    let promptCacheReadPrice := quotaPrice * price.cacheRatio
    let completionPrice := quotaPrice * price.completionRatio
    roundHalfAway ((usage.cost - usage.promptTokens * quotaPrice +
      usage.cachedTokens * (quotaPrice - promptCacheReadPrice) -
      usage.completionTokens * completionPrice) / (promptCacheCreatePrice - quotaPrice))

/-! ## A Claude usage told to an OpenAI client -/

def cacheCreationTokensForOpenAIUsage (usage : Usage) : ℤ :=
  let split := usage.claudeCacheCreation5mTokens + usage.claudeCacheCreation1hTokens
  if split = 0 then usage.cachedCreationTokens
  else if split < usage.cachedCreationTokens then usage.cachedCreationTokens
  else split

def buildOpenAIStyleUsageFromClaudeUsage (usage : Usage) : Usage :=
  { usage with
    promptTokens :=
      usage.promptTokens + usage.cachedTokens + cacheCreationTokensForOpenAIUsage usage
    usageSemantic := "openai"
    usageSource := "anthropic" }

/-! ## `calculateTextQuotaSummary` -/

structure ResponsesUsageInfo where
  webSearchCalls : ℕ := 0
  fileSearchCalls : ℕ := 0

/-- What else the attempt that serves a request leaves behind. -/
structure Served where
  usage : Option Usage := none
  responsesUsageInfo : Option ResponsesUsageInfo := none
  claudeWebSearchRequests : ℕ := 0
  imageGenerationCall : Option (String × String) := none

structure QuotaInfo where
  originModelName : String
  format : FormatInfo
  channelType : ℕ
  price : PriceData
  groupRatio : ℚ
  estimatePromptTokens : ℤ := 0

/-- `textQuotaSummary`, without the prices it repeats. -/
structure TextQuotaSummary where
  modelName : String
  usageSemantic : String
  promptTokens : ℤ
  completionTokens : ℤ
  totalTokens : ℤ
  cacheTokens : ℤ
  cacheCreationTokens : ℤ
  cacheCreationTokens5m : ℤ
  cacheCreationTokens1h : ℤ
  imageTokens : ℤ
  audioTokens : ℤ
  webSearchCallCount : ℕ
  claudeWebSearchCallCount : ℕ
  fileSearchCallCount : ℕ
  quota : ℤ

namespace QuotaInfo

variable (setting : QuotaSetting) (info : QuotaInfo) (served : Served)

def usageSemanticFromUsage (usage : Option Usage) : String :=
  let named := (usage.map Usage.usageSemantic).getD ""
  if named ≠ "" then named
  else if info.format.getFinalRequestRelayFormat = .claude then "anthropic"
  else "openai"

def isLegacyClaudeDerivedOpenAIUsage (usage : Usage) : Bool :=
  if info.format.getFinalRequestRelayFormat = .claude then false
  else if usage.usageSource ≠ "" ∨ usage.usageSemantic ≠ "" then false
  else 0 < usage.claudeCacheCreation5mTokens ∨ 0 < usage.claudeCacheCreation1hTokens

def billedUsage : Usage :=
  served.usage.getD { promptTokens := info.estimatePromptTokens }

/-- The calls of the web search tool; a search model that is not asked for responses makes one. -/
def webSearchCallCount : ℕ :=
  match served.responsesUsageInfo with
  | some tools => tools.webSearchCalls
  | none => if hasSuffix info.originModelName "search-preview" then 1 else 0

def fileSearchCallCount : ℕ := (served.responsesUsageInfo.map (·.fileSearchCalls)).getD 0

def toolQuota : ℚ :=
  let unit := info.groupRatio * setting.quotaPerUnit
  getWebSearchPricePerThousand info.originModelName * info.webSearchCallCount served / 1000 * unit +
  claudeWebSearchPricePerThousand / 1000 * unit * served.claudeWebSearchRequests +
  fileSearchPricePerThousand * fileSearchCallCount served / 1000 * unit +
  match served.imageGenerationCall with
  | none => 0
  | some (quality, size) => getGPTImage1PriceOnceCall quality size * unit

/-- The billed prompt tokens and tokens written. Under the Claude semantic an OpenRouter channel
counts cached tokens in, and those written may be told from the cost, whose test against 0 always
holds. -/
def openRouterTokens (semantic : String) (usage : Usage) : ℤ × ℤ :=
  if info.channelType = ChannelType.openRouter ∧ semantic = "anthropic" then
    let promptTokens := usage.promptTokens - usage.cachedTokens
    let custom := info.price.usePrice ||
      setting.hasCustomModelRatio info.originModelName info.price.modelRatio
    let maybeCreated := setting.calcOpenRouterCacheCreateTokens usage info.price
    let created :=
      if usage.cachedCreationTokens = 0 ∧ info.price.cacheCreationRatio ≠ 1 ∧ custom = false ∧
        0 ≤ maybeCreated ∧ maybeCreated ≤ promptTokens then maybeCreated
      else usage.cachedCreationTokens
    (promptTokens - created, created)
  else (usage.promptTokens, usage.cachedCreationTokens)

/-- The tokens of the cache to take off the prompt, and what they cost; `outside` says that the
prompt does not count them. -/
def cacheTokensWithRatio (outside : Bool) (created : ℤ) (usage : Usage) : ℚ × ℚ :=
  let price := info.price
  let read : ℚ × ℚ :=
    if usage.cachedTokens = 0 then (0, 0)
    else (if outside then 0 else usage.cachedTokens, usage.cachedTokens * price.cacheRatio)
  let hasSplit := 0 < usage.claudeCacheCreation5mTokens ∨ 0 < usage.claudeCacheCreation1hTokens
  let written : ℚ × ℚ :=
    if created = 0 ∧ ¬ hasSplit then (0, 0)
    else if outside then
      let remaining :=
        created - usage.claudeCacheCreation5mTokens - usage.claudeCacheCreation1hTokens
      (0, max remaining 0 * price.cacheCreationRatio +
        usage.claudeCacheCreation5mTokens * price.cacheCreation5mRatio +
        usage.claudeCacheCreation1hTokens * price.cacheCreation1hRatio)
    else (created, created * price.cacheCreationRatio)
  (read.1 + written.1, read.2 + written.2)

def tokenQuota (outside : Bool) (tokens : ℤ × ℤ) (usage : Usage) : ℚ × ℚ :=
  let price := info.price
  let cache := info.cacheTokensWithRatio outside tokens.2 usage
  let audioPrice := getGeminiInputAudioPricePerMillionTokens info.originModelName
  let audio := usage.audioTokens ≠ 0 ∧ 0 < audioPrice
  let baseTokens : ℚ := tokens.1 - cache.1 - usage.imageTokens -
    if audio then (usage.audioTokens : ℚ) else 0
  (baseTokens + cache.2 + usage.imageTokens * price.imageRatio +
      usage.completionTokens * price.completionRatio,
    if audio then
      audioPrice / 1000000 * usage.audioTokens * info.groupRatio * setting.quotaPerUnit
    else 0)

def rawQuota (outside : Bool) (tokens : ℤ × ℤ) (usage : Usage) : ℚ :=
  let ratio := info.price.modelRatio * info.groupRatio
  if info.price.usePrice then
    (info.price.modelPrice * setting.quotaPerUnit * info.groupRatio +
      info.toolQuota setting served) * info.price.otherRatios.prod
  else
    let weighted := info.tokenQuota setting outside tokens usage
    let quota := (weighted.1 * ratio + info.toolQuota setting served + weighted.2) *
      info.price.otherRatios.prod
    if ratio ≠ 0 ∧ quota ≤ 0 then 1 else quota

def calculateTextQuotaSummary : TextQuotaSummary :=
  let usage := info.billedUsage served
  let semantic := info.usageSemanticFromUsage served.usage
  let outside := semantic = "anthropic" || info.isLegacyClaudeDerivedOpenAIUsage usage
  let tokens := info.openRouterTokens setting semantic usage
  let totalTokens := usage.promptTokens + usage.completionTokens
  let quota := roundHalfAway (info.rawQuota setting served outside tokens usage)
  { modelName := info.originModelName
    usageSemantic := semantic
    promptTokens := tokens.1
    completionTokens := usage.completionTokens
    totalTokens
    cacheTokens := usage.cachedTokens
    cacheCreationTokens := tokens.2
    cacheCreationTokens5m := usage.claudeCacheCreation5mTokens
    cacheCreationTokens1h := usage.claudeCacheCreation1hTokens
    imageTokens := usage.imageTokens
    audioTokens := usage.audioTokens
    webSearchCallCount := info.webSearchCallCount served
    claudeWebSearchCallCount := served.claudeWebSearchRequests
    fileSearchCallCount := fileSearchCallCount served
    quota :=
      if totalTokens = 0 then 0
      else if info.price.modelRatio * info.groupRatio ≠ 0 ∧ quota = 0 then 1
      else quota }

end QuotaInfo

/-! ## The attempts of a text request -/

inductive BodyRoute where
  | passThrough
  | converted (request : ConvertedRequest)
  | notConverted
  | viaResponses (request : Option ConvertedRequest)
  deriving DecidableEq, Repr

/-- An attempt: the channel, its body, whether it is answered with 200, and whether the answer is
left to the Claude adaptor. -/
structure TextPass where
  pick : ChannelPick
  route : BodyRoute
  answered : Bool := true
  claude : Bool := false

namespace TextPass

variable (p : TextPass)

def succeeds : Bool :=
  p.answered && p.route ≠ .notConverted && p.route ≠ .viaResponses none

/-- A chat turned into a responses request has a handler of its own for the answer. -/
def entersClaude : Bool :=
  p.answered && p.claude &&
    match p.route with
    | .passThrough => true
    | .converted _ => true
    | _ => false

end TextPass

namespace FormatInfo

variable (info : FormatInfo)

def convert : BodyRoute → FormatInfo
  | .passThrough => info
  | .notConverted => info
  | .converted request => info.appendRequestConversionFromRequest request
  | .viaResponses none => info.appendRequestConversion .openAIResponses
  | .viaResponses (some request) =>
    (info.appendRequestConversion .openAIResponses).appendRequestConversionFromRequest request

def pass (p : TextPass) : FormatInfo :=
  let info := info.convert p.route
  if p.entersClaude then { info with finalRequestRelayFormat := some .claude } else info

end FormatInfo

/-- What does not change from attempt to attempt. -/
structure TextEnv where
  channel : ChannelEnv
  handler : RelayHandler
  modelName : String
  relayFormat : RelayFormat
  setting : QuotaSetting
  price : String → Option PriceData
  estimatePromptTokens : ℤ := 0

/-- The price of the model named, but for a compaction request that of its origin model. -/
def TextEnv.priceOf (env : TextEnv) (originModelName : String) : Option PriceData :=
  env.price (if env.handler = .responsesCompact then originModelName else env.modelName)

structure TextRequest where
  base : ChannelRequest := {}
  format : FormatInfo

namespace TextRequest

variable (env : TextEnv)

def start : TextRequest where
  format := .gen env.relayFormat

def enter (s : TextRequest) (p : TextPass) : ChannelRequest × Option AttemptInfo :=
  let a := s.base.attempt env.channel env.handler env.modelName p.pick
  match a.2 with
  | some ⟨_, some (.ok _)⟩ => (a.1, a.1.info)
  | _ => (a.1, none)

def step (s : TextRequest) (p : TextPass) : TextRequest :=
  match s.enter env p with
  | (base, none) => { s with base }
  | (base, some _) => { base, format := s.format.pass p }

def serve (s : TextRequest) (p : TextPass) (served : Served) (groupRatio : ℚ) :
    Option TextQuotaSummary :=
  if p.succeeds then
    match (s.enter env p).2 with
    | none => none
    | some info =>
      (env.priceOf info.originModelName).map fun price =>
        QuotaInfo.calculateTextQuotaSummary env.setting
          { originModelName := info.originModelName
            format := s.format.pass p
            channelType := (info.channelMeta.getD {}).channelType
            price, groupRatio
            estimatePromptTokens := env.estimatePromptTokens } served
  else none

end TextRequest

end AggreApi
