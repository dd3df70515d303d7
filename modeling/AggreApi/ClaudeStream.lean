import AggreApi.ChatFormat

/-!
# OpenAI streams for Claude clients

`StreamResponseOpenAI2Claude` turns one chunk into events and keeps in `ClaudeConvertInfo` which
content blocks are open; `OaiStreamHandler` calls it for each chunk when the next one has come.
`ResponseOpenAI2Claude` converts a whole response.
-/

namespace AggreApi

/-- `ClaudeUsage`, as it is built from an OpenAI usage. -/
structure ClaudeUsage where
  inputTokens : ℤ := 0
  outputTokens : ℤ := 0
  cacheCreationInputTokens : ℤ := 0
  cacheReadInputTokens : ℤ := 0
  cacheCreation : Option (ℤ × ℤ) := none
  deriving DecidableEq, Repr

def buildClaudeUsageFromOpenAIUsage (u : TokenUsage) : ClaudeUsage :=
  { inputTokens := u.promptTokens
    outputTokens := u.completionTokens
    cacheCreationInputTokens := u.cachedCreationTokens
    cacheReadInputTokens := u.cachedTokens
    cacheCreation :=
      if u.claudeCacheCreation5mTokens > 0 ∨ u.claudeCacheCreation1hTokens > 0 then
        some (u.claudeCacheCreation5mTokens, u.claudeCacheCreation1hTokens)
      else none }

inductive ClaudeBlock where
  | text
  | thinking
  | toolUse (id name : String)
  deriving DecidableEq, Repr

inductive ClaudeDelta where
  | text (text : String)
  | thinking (thinking : String)
  | inputJson (partialJson : String)
  deriving DecidableEq, Repr

inductive ClaudeEvent where
  | messageStart (id model : String) (inputTokens : ℤ)
  | blockStart (index : ℕ) (block : ClaudeBlock)
  | blockDelta (index : ℕ) (delta : ClaudeDelta)
  | blockStop (index : ℕ)
  | messageDelta (usage : ClaudeUsage) (stopReason : String)
  | messageStop
  deriving DecidableEq, Repr

/-- `LastMessagesType`. -/
inductive LastMessageType where
  | none
  | text
  | tools
  | thinking
  deriving DecidableEq, Repr

structure ClaudeConvertInfo where
  lastMessagesType : LastMessageType := .none
  index : ℕ := 0
  usage : Option TokenUsage := none
  finishReason : String := ""
  done : Bool := false
  toolCallBaseIndex : ℕ := 0
  toolCallMaxIndexOffset : ℕ := 0

/-- What the conversion reads of `RelayInfo`. -/
structure StreamInfo extends ClaudeConvertInfo where
  sendResponseCount : ℕ := 0
  estimatePromptTokens : ℤ := 0

namespace StreamInfo

variable (info : StreamInfo)

def stopOpenBlocks : List ClaudeEvent :=
  match info.lastMessagesType with
  | .text | .thinking => [.blockStop info.index]
  | .tools => (List.range (info.toolCallMaxIndexOffset + 1)).map fun offset =>
      .blockStop (info.toolCallBaseIndex + offset)
  | .none => []

def advance : StreamInfo :=
  match info.lastMessagesType with
  | .none => info
  | .tools =>
    { info with
      index := info.toolCallBaseIndex + info.toolCallMaxIndexOffset + 1
      toolCallBaseIndex := 0
      toolCallMaxIndexOffset := 0
      lastMessagesType := .none }
  | _ => { info with index := info.index + 1, lastMessagesType := .none }

/-- The stops, the reason and the end of the message; the reason is sent with a usage only. -/
def finish (usage : Option TokenUsage) : List ClaudeEvent :=
  info.stopOpenBlocks ++
    (match usage.or info.usage with
      | some u => [.messageDelta (buildClaudeUsageFromOpenAIUsage u)
          (openAIFinishReasonToClaudeStopReason info.finishReason)]
      | none => []) ++
    [.messageStop]

/-- Text or thinking after the first chunk: a block is opened unless one of the type is open. -/
def speak (type : LastMessageType) (block : ClaudeBlock) (delta : ClaudeDelta) :
    List ClaudeEvent × StreamInfo :=
  if info.lastMessagesType ≠ type then
    (info.stopOpenBlocks ++
        [.blockStart info.advance.index block, .blockDelta info.advance.index delta],
      { info.advance with lastMessagesType := type })
  else ([.blockDelta info.index delta], info)

def speakFirst (type : LastMessageType) (block : ClaudeBlock) (delta : ClaudeDelta) :
    List ClaudeEvent × StreamInfo :=
  if info.lastMessagesType ≠ type then info.speak type block delta
  else
    ([.blockStart info.index block, .blockDelta info.index delta],
      { info with lastMessagesType := type })

end StreamInfo

def toolEvents (index : ℕ) (call : ToolCallResponse) : List ClaudeEvent :=
  (if call.name ≠ "" then [.blockStart index (.toolUse call.id call.name)] else []) ++
    if call.arguments ≠ "" then [.blockDelta index (.inputJson call.arguments)] else []

variable (c : StreamChunk) (info : StreamInfo) (d : StreamDelta)

namespace StreamChunk

def finish? (c : StreamChunk) : Option String :=
  (c.choices.head?.bind (·.finishReason)).filter (· ≠ "")

/-- The tool call of the first chunk; of several, only the first is converted. -/
def convertFirstTool (info : StreamInfo) : List ClaudeEvent × StreamInfo :=
  match d.calls with
  | [] => ([], info)
  | call :: _ =>
    (.blockStart 0 (.toolUse call.id call.name) ::
        if call.arguments ≠ "" then [.blockDelta 0 (.inputJson call.arguments)] else [],
      { info with
        lastMessagesType := .tools
        toolCallBaseIndex := 0
        toolCallMaxIndexOffset := 0 })

def convertFirstText (info : StreamInfo) : List ClaudeEvent × StreamInfo :=
  if d.getReasoningContent ≠ "" then
    info.speakFirst .thinking .thinking (.thinking d.getReasoningContent)
  else if d.getContentString ≠ "" then info.speakFirst .text .text (.text d.getContentString)
  else ([], info)

/-- The first chunk: the start of the message, and the content non-standard upstreams send with
it. -/
def convertFirst : List ClaudeEvent × StreamInfo :=
  let start := .messageStart c.id c.model info.estimatePromptTokens
  match c.choices with
  | [] => ([start], info)
  | choice :: _ =>
    let (tool, info) := convertFirstTool choice.delta info
    let (spoken, info) := convertFirstText choice.delta info
    match c.finish? with
    | some reason =>
      let info := { info with finishReason := reason }
      (start :: tool ++ spoken ++ info.finish c.usage, { info with done := true })
    | none => (start :: tool ++ spoken, info)

def toolLoop (base : ℕ) : ℕ → ℕ → List ToolCallResponse → List ClaudeEvent × ℕ
  | _, maxOffset, [] => ([], maxOffset)
  | i, maxOffset, call :: calls =>
    let offset := call.index.getD i
    let (events, maxOffset) := toolLoop base (i + 1) (max maxOffset offset) calls
    (toolEvents (base + offset) call ++ events, maxOffset)

def convertDelta (info : StreamInfo) : List ClaudeEvent × StreamInfo :=
  if d.calls ≠ [] then
    let (stops, info) :=
      if info.lastMessagesType ≠ .tools then
        (info.stopOpenBlocks,
          { info.advance with
            toolCallBaseIndex := info.advance.index
            toolCallMaxIndexOffset := 0 })
      else ([], info)
    let base := info.toolCallBaseIndex
    let (events, maxOffset) := toolLoop base 0 info.toolCallMaxIndexOffset d.calls
    (stops ++ events,
      { info with
        lastMessagesType := .tools
        toolCallMaxIndexOffset := maxOffset
        index := base + maxOffset })
  else if d.getReasoningContent ≠ "" then
    info.speak .thinking .thinking (.thinking d.getReasoningContent)
  else if d.getContentString ≠ "" then info.speak .text .text (.text d.getContentString)
  else ([], info)

def convertNext : List ClaudeEvent × StreamInfo :=
  match c.choices with
  | [] => ([], info)
  | choice :: _ =>
    let info := { info with finishReason := c.finish?.getD info.finishReason }
    let (events, info) := convertDelta choice.delta info
    if c.finish?.isSome then (events ++ info.finish c.usage, { info with done := true })
    else (events, info)

def streamResponseOpenAI2Claude : List ClaudeEvent × StreamInfo :=
  if info.done then ([], info)
  else if info.sendResponseCount = 1 then c.convertFirst info
  else c.convertNext info

def handleStreamFormat : List ClaudeEvent × StreamInfo :=
  c.streamResponseOpenAI2Claude
    { info with
      sendResponseCount := info.sendResponseCount + 1
      usage := c.usage.or info.usage }

/-- Every chunk but the last is converted when the next one has come, the last one with the usage
counted in the end. -/
def oaiStreamHandler (usage : TokenUsage) : StreamInfo → List StreamChunk → List ClaudeEvent
  | _, [] => []
  | info, [c] => (c.streamResponseOpenAI2Claude { info with usage := some usage }).1
  | info, c :: cs =>
    let (events, info) := c.handleStreamFormat info
    events ++ oaiStreamHandler usage info cs

/-- The chunks are converted as they come, as `OaiResponsesToChatStreamHandler` does; the usage is
known with the last. -/
def convertStream (usage : TokenUsage) : StreamInfo → List StreamChunk → List ClaudeEvent
  | _, [] => []
  | info, [c] => (c.handleStreamFormat { info with usage := some usage }).1
  | info, c :: cs =>
    let (events, info) := c.handleStreamFormat info
    events ++ convertStream usage info cs

end StreamChunk

inductive ClaudeContent where
  | text (text : String)
  | toolUse (id name : String) (input : Json)

structure ClaudeMessage where
  id : String
  model : String
  content : List ClaudeContent
  stopReason : String
  usage : ClaudeUsage

/-- The input of a tool call: its arguments decoded, or as a text where they are no object. -/
def toolInput (unmarshal : String → Option JsonObject) (arguments : String) : Json :=
  match unmarshal arguments with
  | some members => .obj members
  | none => .str arguments

def responseOpenAI2Claude (unmarshal : String → Option JsonObject) (r : TextResponse) :
    ClaudeMessage :=
  { id := r.id
    model := r.model
    content := r.choices.flatMap fun choice =>
      if choice.finishReason = "tool_calls" then
        choice.toolCalls.map fun call =>
          .toolUse call.id call.name (toolInput unmarshal call.arguments)
      else [.text choice.content]
    stopReason :=
      (r.choices.getLast?.map fun choice =>
        openAIFinishReasonToClaudeStopReason choice.finishReason).getD ""
    usage := buildClaudeUsageFromOpenAIUsage r.usage }

end AggreApi
