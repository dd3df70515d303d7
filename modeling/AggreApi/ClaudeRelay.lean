import AggreApi.ClaudeStream

/-!
# Claude upstreams

Responses and events of a Claude upstream, as decoded, their conversion for OpenAI clients, and the
usage `ClaudeStreamHandler` and `ClaudeHandler` read off them.
-/

namespace AggreApi

inductive ClaudeEventType where
  | messageStart
  | contentBlockStart
  | contentBlockDelta
  | messageDelta
  | messageStop
  | other
  deriving DecidableEq, Repr

/-- The types of content blocks and deltas that are told apart. -/
inductive ClaudeMediaType where
  | text
  | toolUse
  | thinking
  | inputJsonDelta
  | signatureDelta
  | thinkingDelta
  | other
  deriving DecidableEq, Repr

/-- `ClaudeUsage`, as it is received. -/
structure ReceivedUsage extends ClaudeUsage where
  webSearchRequests : Option ℤ := none
  deriving DecidableEq, Repr

namespace ReceivedUsage

/-- `GetCacheCreation5mTokens`. -/
def cacheCreation5m (u : ReceivedUsage) : ℤ := (u.cacheCreation.map Prod.fst).getD 0

/-- `GetCacheCreation1hTokens`. -/
def cacheCreation1h (u : ReceivedUsage) : ℤ := (u.cacheCreation.map Prod.snd).getD 0

end ReceivedUsage

/-- `ClaudeMediaMessage`, as far as it is read. -/
structure ClaudeMedia where
  type : ClaudeMediaType := .other
  text : Option String := none
  thinking : Option String := none
  partialJson : Option String := none
  stopReason : Option String := none
  id : String := ""
  name : String := ""
  input : Json := .null
  model : String := ""
  usage : Option ReceivedUsage := none

def ClaudeMedia.getText (m : ClaudeMedia) : String := m.text.getD ""

/-- `dto.ClaudeResponse`: a message, or an event; `error` says that it carries one with a type. -/
structure ClaudeResponse where
  type : ClaudeEventType := .other
  id : String := ""
  model : String := ""
  content : List ClaudeMedia := []
  stopReason : String := ""
  usage : Option ReceivedUsage := none
  index : Option ℤ := none
  contentBlock : Option ClaudeMedia := none
  delta : Option ClaudeMedia := none
  message : Option ClaudeMedia := none
  error : Bool := false

variable (r : ClaudeResponse)

namespace ClaudeResponse

def fcIdx : ℕ := (r.index.map fun i => (i - 1).toNat).getD 0

/-- The content of a `content_block_delta`; an `input_json_delta` always has its `partial_json`. -/
def blockDelta (fcIdx : ℕ) (delta : ClaudeMedia) : StreamDelta :=
  match delta.type with
  | .inputJsonDelta =>
    { toolCalls := some [{ index := some fcIdx, arguments := delta.partialJson.getD "" }] }
  | .signatureDelta => { content := delta.text, reasoningContent := some "\n" }
  | .thinkingDelta => { content := delta.text, reasoningContent := delta.thinking }
  | _ => { content := delta.text }

def blockStart (fcIdx : ℕ) (block : ClaudeMedia) : StreamDelta :=
  match block.type with
  | .text => { content := block.text }
  | .toolUse => { toolCalls := some [{ index := some fcIdx, id := block.id, name := block.name }] }
  | _ => {}

def streamResponseClaude2OpenAI : Option StreamChunk :=
  let chunk (id model : String) (choice : StreamChoice) : StreamChunk :=
    { id := id, object := "chat.completion.chunk", model := model, choices := [choice] }
  match r.type with
  | .messageStart =>
    some (chunk ((r.message.map (·.id)).getD "") ((r.message.map (·.model)).getD r.model)
      { delta := { content := some "", role := "assistant" } })
  | .contentBlockStart =>
    r.contentBlock.map fun block => chunk "" r.model { delta := blockStart r.fcIdx block }
  | .contentBlockDelta =>
    some (chunk "" r.model { delta := (r.delta.map (blockDelta r.fcIdx)).getD {} })
  | .messageDelta =>
    some (chunk "" r.model
      { finishReason := ((r.delta.bind (·.stopReason)).map
          claudeStopReasonToOpenAIFinishReason).filter (· ≠ "null") })
  | .messageStop => none
  | .other => none

def toolCall? (marshal : Json → String) (m : ClaudeMedia) : Option ToolCallResponse :=
  if m.type = .toolUse then
    some { id := m.id, name := m.name, arguments := marshal m.input }
  else none

/-- `ResponseClaude2OpenAI`: the text and the thinking are those of the last block of their type. -/
def responseClaude2OpenAI (marshal : Json → String) (r : ClaudeResponse) : TextResponse :=
  let text := r.content.foldl (fun text m => if m.type = .text then m.getText else text)
    ((r.content.head?.map (·.getText)).getD "")
  let thinking := r.content.foldl
    (fun thinking m => if m.type = .thinking then m.thinking.getD thinking else thinking) ""
  { id := r.id
    object := "chat.completion"
    model := r.model
    choices :=
      [{ index := 0
         content := text
         reasoningContent := thinking
         toolCalls := r.content.filterMap (toolCall? marshal)
         finishReason := claudeStopReasonToOpenAIFinishReason r.stopReason }] }

end ClaudeResponse

inductive ClaudeClient where
  | openAI
  | claude
  deriving DecidableEq, Repr

/-- `ClaudeResponseInfo`, and the model name, which a Claude client's message sets. -/
structure ClaudeResponseInfo where
  responseId : String := ""
  model : String := ""
  responseText : String := ""
  usage : TokenUsage := {}
  done : Bool := false
  upstreamModelName : String := ""

structure ClaudeServed where
  usage : TokenUsage
  webSearchRequests : ℕ := 0

def ClaudeServed.toServed (s : ClaudeServed) : Served :=
  { usage := some s.usage.toUsage, claudeWebSearchRequests := s.webSearchRequests }

def takePositive (new old : ℤ) : ℤ := if 0 < new then new else old

namespace TokenUsage

def start (usage : TokenUsage) (u : ReceivedUsage) : TokenUsage :=
  { usage with
    promptTokens := u.inputTokens
    usageSemantic := "anthropic"
    cachedTokens := u.cacheReadInputTokens
    cachedCreationTokens := u.cacheCreationInputTokens
    claudeCacheCreation5mTokens := u.cacheCreation5m
    claudeCacheCreation1hTokens := u.cacheCreation1h
    completionTokens := u.outputTokens }

def delta (usage : TokenUsage) (u : ReceivedUsage) : TokenUsage :=
  let promptTokens := takePositive u.inputTokens usage.promptTokens
  let completionTokens := takePositive u.outputTokens usage.completionTokens
  { usage with
    usageSemantic := "anthropic"
    promptTokens
    cachedTokens := takePositive u.cacheReadInputTokens usage.cachedTokens
    cachedCreationTokens := takePositive u.cacheCreationInputTokens usage.cachedCreationTokens
    claudeCacheCreation5mTokens :=
      takePositive u.cacheCreation5m usage.claudeCacheCreation5mTokens
    claudeCacheCreation1hTokens :=
      takePositive u.cacheCreation1h usage.claudeCacheCreation1hTokens
    completionTokens
    totalTokens := promptTokens + completionTokens }

end TokenUsage

namespace ClaudeResponseInfo

def formatClaudeResponseInfo (info : ClaudeResponseInfo) (r : ClaudeResponse) :
    ClaudeResponseInfo :=
  match r.type with
  | .messageStart =>
    match r.message with
    | none => info
    | some message =>
      { info with
        responseId := message.id
        model := message.model
        usage := message.usage.elim info.usage info.usage.start }
  | .contentBlockDelta =>
    match r.delta with
    | none => info
    | some delta =>
      { info with
        responseText := info.responseText ++ delta.text.getD "" ++ delta.thinking.getD "" }
  | .messageDelta => { info with usage := r.usage.elim info.usage info.usage.delta, done := true }
  | _ => info

/-- `HandleStreamResponseData`, as far as the usage depends on it; an error ends the stream. -/
def handleStreamResponseData (client : ClaudeClient) (info : ClaudeResponseInfo)
    (r : ClaudeResponse) : Option ClaudeResponseInfo :=
  if r.error then none
  else
    let info := info.formatClaudeResponseInfo r
    match client, r.type, r.message with
    | .claude, .messageStart, some message =>
      some { info with upstreamModelName := message.model }
    | _, _, _ => some info

/-- `HandleStreamFinalResponse`: an incomplete usage is replaced by one counted from the text;
`estimate` is `EstimateTokenByModel`. -/
def handleStreamFinalResponse (estimate : String → String → ℤ) (info : ClaudeResponseInfo) :
    TokenUsage :=
  let usage : TokenUsage :=
    if info.usage.completionTokens = 0 ∨ ¬ info.done then
      let completionTokens := estimate info.upstreamModelName info.responseText
      { promptTokens := info.usage.promptTokens
        completionTokens
        totalTokens := info.usage.promptTokens + completionTokens }
    else info.usage
  { usage with usageSemantic := "anthropic" }

end ClaudeResponseInfo

/-- `ClaudeStreamHandler` for the events that are read; none where one is an error. -/
def claudeStreamHandler (client : ClaudeClient) (estimate : String → String → ℤ)
    (upstreamModelName : String) (events : List ClaudeResponse) : Option ClaudeServed :=
  let info : ClaudeResponseInfo := { model := upstreamModelName, upstreamModelName }
  (events.foldlM (ClaudeResponseInfo.handleStreamResponseData client) info).map fun info =>
    { usage := info.handleStreamFinalResponse estimate }

/-- `ClaudeHandler`, as far as the usage depends on it. -/
def claudeHandler : Option ClaudeServed :=
  if r.error then none
  else
    some
      { usage := r.usage.elim {} fun u =>
          { promptTokens := u.inputTokens
            completionTokens := u.outputTokens
            totalTokens := u.inputTokens + u.outputTokens
            usageSemantic := "anthropic"
            cachedTokens := u.cacheReadInputTokens
            cachedCreationTokens := u.cacheCreationInputTokens
            claudeCacheCreation5mTokens := u.cacheCreation5m
            claudeCacheCreation1hTokens := u.cacheCreation1h }
        webSearchRequests := ((r.usage.bind (·.webSearchRequests)).getD 0).toNat }

end AggreApi
