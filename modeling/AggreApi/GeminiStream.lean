import AggreApi.ChatFormat

/-!
# OpenAI responses for Gemini clients

`ResponseOpenAI2Gemini` converts a whole response and `StreamResponseOpenAI2Gemini` one chunk of a
stream, on its own. Of a part only the text and the function call are kept.
-/

namespace AggreApi

inductive GeminiPart where
  | text (text : String)
  | functionCall (name : String) (args : JsonObject)

/-- `GeminiChatCandidate`, with the parts of its content. -/
structure GeminiCandidate where
  index : ℕ
  finishReason : Option String
  parts : List GeminiPart

/-- `GeminiUsageMetadata`, as far as it is filled in. -/
structure GeminiUsageMetadata where
  promptTokenCount : ℤ
  candidatesTokenCount : ℤ
  totalTokenCount : ℤ

/-- `GeminiChatResponse`. -/
structure GeminiResponse where
  candidates : List GeminiCandidate
  usageMetadata : GeminiUsageMetadata

def geminiFinishReason (finishReason : String) : String :=
  match finishReason with
  | "stop" => "STOP"
  | "length" => "MAX_TOKENS"
  | "content_filter" => "SAFETY"
  | "tool_calls" => "STOP"
  | _ => "STOP"

section

variable (unmarshal : String → Option JsonObject)

def geminiArgs (arguments : String) : JsonObject :=
  if arguments ≠ "" then (unmarshal arguments).getD [("arguments", .str arguments)] else []

def ToolCallResponse.geminiPart (call : ToolCallResponse) : GeminiPart :=
  .functionCall call.name (geminiArgs unmarshal call.arguments)

def geminiText (text : String) : List GeminiPart := if text ≠ "" then [.text text] else []

def responseOpenAI2Gemini (r : TextResponse) : GeminiResponse :=
  { candidates := r.choices.map fun choice =>
      { index := choice.index
        finishReason := some (geminiFinishReason choice.finishReason)
        parts :=
          if choice.toolCalls ≠ [] then choice.toolCalls.map (·.geminiPart unmarshal)
          else geminiText choice.content }
    usageMetadata :=
      { promptTokenCount := r.usage.promptTokens
        candidatesTokenCount := r.usage.completionTokens
        totalTokenCount := r.usage.promptTokens + r.usage.completionTokens } }

/-- The parts of a delta: its tool calls, where it has a list of them, or else its text. -/
def StreamDelta.geminiParts (d : StreamDelta) : List GeminiPart :=
  match d.toolCalls with
  | some calls => calls.map (·.geminiPart unmarshal)
  | none => geminiText d.getContentString

/-- `StreamResponseOpenAI2Gemini`; a chunk without content and without a reason is skipped. -/
def streamResponseOpenAI2Gemini (estimatePromptTokens : ℤ) (c : StreamChunk) :
    Option GeminiResponse :=
  let hasContent := c.choices.any fun choice =>
    choice.delta.getContentString ≠ "" ∨ choice.delta.calls ≠ []
  let hasFinishReason := c.choices.any fun choice => choice.finishReason.isSome
  if ¬ hasContent ∧ ¬ hasFinishReason then none
  else
    some
      { candidates := c.choices.map fun choice =>
          { index := choice.index
            finishReason := choice.finishReason.map geminiFinishReason
            parts := choice.delta.geminiParts unmarshal }
        usageMetadata :=
          match c.usage with
          | some usage =>
            { promptTokenCount := usage.promptTokens
              candidatesTokenCount := usage.completionTokens
              totalTokenCount := usage.totalTokens }
          | none =>
            { promptTokenCount := estimatePromptTokens
              candidatesTokenCount := 0
              totalTokenCount := estimatePromptTokens } }

end

end AggreApi
