import AggreApi.TextQuota

/-!
# The chat formats

Responses and stream chunks of the OpenAI format, as decoded, and the maps between the reasons a
response ends with. Of a response's message only the content as a text, the reasoning and the tool
calls are kept.
-/

namespace AggreApi

structure TokenUsage extends Usage where
  totalTokens : ℤ := 0

/-- `ToolCallResponse`, with its function. -/
structure ToolCallResponse where
  index : Option ℕ := none
  id : String := ""
  name : String := ""
  arguments : String := ""
  deriving DecidableEq, Repr

structure StreamDelta where
  content : Option String := none
  reasoningContent : Option String := none
  reasoning : Option String := none
  role : String := ""
  toolCalls : Option (List ToolCallResponse) := none
  deriving DecidableEq, Repr

variable (d : StreamDelta)

namespace StreamDelta

def getContentString : String := d.content.getD ""

def getReasoningContent : String := (d.reasoningContent.or d.reasoning).getD ""

def calls : List ToolCallResponse := d.toolCalls.getD []

end StreamDelta

/-- `ChatCompletionsStreamResponseChoice`. -/
structure StreamChoice where
  delta : StreamDelta := {}
  finishReason : Option String := none
  index : ℕ := 0
  deriving DecidableEq, Repr

/-- `ChatCompletionsStreamResponse`. -/
structure StreamChunk where
  id : String := ""
  object : String := ""
  model : String := ""
  choices : List StreamChoice := []
  usage : Option TokenUsage := none

/-- A choice of a whole response, its message flattened. -/
structure TextChoice where
  index : ℕ := 0
  content : String := ""
  reasoningContent : String := ""
  toolCalls : List ToolCallResponse := []
  finishReason : String := ""

/-- `OpenAITextResponse`. -/
structure TextResponse where
  id : String := ""
  object : String := ""
  model : String := ""
  choices : List TextChoice := []
  usage : TokenUsage := {}

def openAIFinishReasonToClaudeStopReason (finishReason : String) : String :=
  match toLower finishReason with
  | "stop" => "end_turn"
  | "stop_sequence" => "stop_sequence"
  | "length" => "max_tokens"
  | "max_tokens" => "max_tokens"
  | "content_filter" => "refusal"
  | "tool_calls" => "tool_use"
  | _ => finishReason

def claudeStopReasonToOpenAIFinishReason (stopReason : String) : String :=
  match toLower stopReason with
  | "stop_sequence" => "stop"
  | "end_turn" => "stop"
  | "max_tokens" => "length"
  | "tool_use" => "tool_calls"
  | "refusal" => "content_filter"
  | _ => stopReason

end AggreApi
