import AggreApi.GeminiStream
import AggreApi.Proofs.ToolFragments

/-!
# Streamed and whole responses for Gemini clients

Each chunk is converted on its own, so a client that appends the parts of a candidate gets one
function call for each fragment of a tool call. `agrees_iff` compares this with the whole response
candidate by candidate.
-/

namespace AggreApi

open List StreamDelta

namespace GeminiPart

def text? : GeminiPart → Option String
  | text s => some s
  | functionCall _ _ => none

def call? : GeminiPart → Option (String × JsonObject)
  | text _ => none
  | functionCall name args => some (name, args)

end GeminiPart

def geminiTextOf (parts : List GeminiPart) : String := String.join
    (parts.filterMap GeminiPart.text?)

def geminiCallsOf (parts : List GeminiPart) : List (String × JsonObject) :=
  parts.filterMap GeminiPart.call?

def GeminiResponse.partsOf (r : GeminiResponse) (i : ℕ) : List GeminiPart :=
  (r.candidates.filter (·.index = i)).flatMap (·.parts)

structure CutResponse where
  chunks : List StreamChunk
  indices : List ℕ
  nodup : indices.Nodup
  numbered : ∀ i, Numbered 0 ((choiceDeltas chunks i).flatMap offsets)

namespace CutResponse

variable (s : CutResponse)

def deltas (i : ℕ) : List StreamDelta := choiceDeltas s.chunks i

def choice (i : ℕ) : TextChoice :=
  { index := i
    content := String.join ((s.deltas i).map getContentString)
    reasoningContent := String.join ((s.deltas i).map getReasoningContent)
    toolCalls := toolCallsOf ((s.deltas i).flatMap offsets)
    finishReason := (((s.chunks.flatMap (·.choices)).filter (·.index = i)).findSome?
      (·.finishReason)).getD "" }

def response : TextResponse := { choices := s.indices.map s.choice }

def streamParts (unmarshal : String → Option JsonObject) (estimatePromptTokens : ℤ) (i : ℕ) :
    List GeminiPart :=
  (s.chunks.filterMap (streamResponseOpenAI2Gemini unmarshal estimatePromptTokens)).flatMap
    (·.partsOf i)

/-- Every candidate has the same text and the same function calls. -/
def Agrees (unmarshal : String → Option JsonObject) (estimatePromptTokens : ℤ) : Prop :=
  ∀ i ∈ s.indices,
    geminiTextOf (s.streamParts unmarshal estimatePromptTokens i) =
        geminiTextOf ((responseOpenAI2Gemini unmarshal s.response).partsOf i) ∧
      geminiCallsOf (s.streamParts unmarshal estimatePromptTokens i) =
        geminiCallsOf ((responseOpenAI2Gemini unmarshal s.response).partsOf i)

/-- No fragment goes on with an earlier one, and no text beside tool calls is left out. -/
def WholeCalls (i : ℕ) : Prop :=
  (∀ d ∈ s.deltas i, ∀ c ∈ d.calls, c.name ≠ "") ∧
    if ∃ d ∈ s.deltas i, d.calls ≠ [] then
      ∀ d ∈ s.deltas i, d.toolCalls = none → d.getContentString = ""
    else ∀ d ∈ s.deltas i, d.toolCalls.isSome = true → d.getContentString = ""

end CutResponse

section

variable (unmarshal : String → Option JsonObject) (estimatePromptTokens : ℤ)

theorem geminiParts_eq_nil {d : StreamDelta} (htext : d.getContentString = "")
    (hcalls : d.calls = []) : d.geminiParts unmarshal = [] := by
  rw [geminiParts]
  rw [calls] at hcalls
  rcases h : d.toolCalls with _ | calls <;> rw [h] at hcalls
  · exact if_neg (not_not_intro htext)
  · rw [Option.getD_some] at hcalls
    rw [hcalls]
    rfl

theorem partsOf_chunk (c : StreamChunk) (i : ℕ) :
    (streamResponseOpenAI2Gemini unmarshal estimatePromptTokens c).elim [] (·.partsOf i) =
      (c.choices.filter (·.index = i)).flatMap (·.delta.geminiParts unmarshal) := by
  rw [streamResponseOpenAI2Gemini]
  split_ifs with h
  · symm
    refine flatMap_eq_nil_iff.2 fun choice hchoice => ?_
    have hmem := (mem_filter.1 hchoice).1
    have hnone : ¬ (choice.delta.getContentString ≠ "" ∨ choice.delta.calls ≠ []) := by
      intro hc
      exact h.1 (any_eq_true.2 ⟨choice, hmem, decide_eq_true hc⟩)
    rw [not_or, not_not, not_not] at hnone
    exact geminiParts_eq_nil unmarshal hnone.1 hnone.2
  · rw [Option.elim_some, GeminiResponse.partsOf, filter_map, flatMap_map]
    rfl

theorem geminiTextOf_append (ps ps' : List GeminiPart) :
    geminiTextOf (ps ++ ps') = geminiTextOf ps ++ geminiTextOf ps' := by
  rw [geminiTextOf, filterMap_append, String.join_append]
  rfl

theorem geminiTextOf_geminiText (t : String) : geminiTextOf (geminiText t) = t := by
  rw [geminiText]
  split_ifs with h
  · exact String.empty_append
  · exact (not_not.1 h).symm

theorem geminiCallsOf_geminiText (t : String) : geminiCallsOf (geminiText t) = [] := by
  rw [geminiText]
  split_ifs <;> rfl

def ToolCallResponse.geminiCall (c : ToolCallResponse) : String × JsonObject :=
  (c.name, geminiArgs unmarshal c.arguments)

theorem geminiTextOf_calls (cs : List ToolCallResponse) :
    geminiTextOf (cs.map (·.geminiPart unmarshal)) = "" := by
  rw [geminiTextOf, filterMap_map]
  refine join_eq_empty_iff.2 fun t ht => ?_
  obtain ⟨c, -, hc⟩ := mem_filterMap.1 ht
  cases hc

theorem geminiCallsOf_calls (cs : List ToolCallResponse) :
    geminiCallsOf (cs.map (·.geminiPart unmarshal)) = cs.map (·.geminiCall unmarshal) := by
  rw [geminiCallsOf, filterMap_map]
  exact congrFun filterMap_eq_map cs

theorem geminiTextOf_geminiParts (d : StreamDelta) : geminiTextOf (d.geminiParts unmarshal) =
      if d.toolCalls.isSome then "" else d.getContentString := by
  rw [geminiParts]
  rcases d.toolCalls with _ | calls
  · exact geminiTextOf_geminiText _
  · exact geminiTextOf_calls unmarshal calls

theorem geminiCallsOf_geminiParts (d : StreamDelta) :
    geminiCallsOf (d.geminiParts unmarshal) = d.calls.map (·.geminiCall unmarshal) := by
  rw [geminiParts, calls]
  rcases d.toolCalls with _ | calls
  · exact geminiCallsOf_geminiText _
  · exact geminiCallsOf_calls unmarshal calls

theorem geminiTextOf_deltas : ∀ ds : List StreamDelta,
    geminiTextOf (ds.flatMap (·.geminiParts unmarshal)) =
      String.join (ds.map fun d => if d.toolCalls.isSome then "" else d.getContentString)
  | [] => rfl
  | d :: ds => by
    rw [flatMap_cons, geminiTextOf_append, geminiTextOf_geminiParts, geminiTextOf_deltas ds,
      map_cons, String.join_cons]

theorem geminiCallsOf_deltas : ∀ ds : List StreamDelta,
    geminiCallsOf (ds.flatMap (·.geminiParts unmarshal)) =
      (ds.flatMap calls).map (·.geminiCall unmarshal)
  | [] => rfl
  | d :: ds => by
    have ih := geminiCallsOf_deltas ds
    rw [geminiCallsOf] at ih ⊢
    rw [flatMap_cons, filterMap_append, ih, flatMap_cons, map_append]
    exact congrArg (· ++ _) (geminiCallsOf_geminiParts unmarshal d)

namespace CutResponse

variable (s : CutResponse)

theorem streamParts_eq (i : ℕ) : s.streamParts unmarshal estimatePromptTokens i =
    (s.deltas i).flatMap (·.geminiParts unmarshal) := by
  rw [streamParts, deltas, choiceDeltas]
  induction s.chunks with
  | nil => rfl
  | cons c _ ih =>
    have hc := partsOf_chunk unmarshal estimatePromptTokens c i
    rw [flatMap_cons, filter_append, map_append, flatMap_append,
      flatMap_map, ← hc, ← ih]
    rcases hresponse : streamResponseOpenAI2Gemini unmarshal estimatePromptTokens c with _ | r
    · rw [filterMap_cons_none hresponse]
      rfl
    · rw [filterMap_cons_some hresponse, flatMap_cons]
      rfl

theorem partsOf_response {i : ℕ} (hi : i ∈ s.indices) :
    (responseOpenAI2Gemini unmarshal s.response).partsOf i =
      if (s.choice i).toolCalls ≠ [] then (s.choice i).toolCalls.map (·.geminiPart unmarshal)
      else geminiText (s.choice i).content := by
  have hfilter : s.indices.filter (· = i) = [i] := by
    have hcount := filter_beq (l := s.indices) i
    rwa [count_eq_one_of_mem s.nodup hi] at hcount
  rw [GeminiResponse.partsOf, responseOpenAI2Gemini, response, map_map, filter_map]
  change (List.map _ (s.indices.filter (· = i))).flatMap _ = _
  rw [hfilter]
  exact append_nil _

theorem geminiCall_eq_iff (ds : List StreamDelta) :
    (ds.flatMap calls).map (·.geminiCall unmarshal) =
        (toolCallsOf (ds.flatMap offsets)).map (·.geminiCall unmarshal) ↔
      ∀ d ∈ ds, ∀ c ∈ d.calls, c.name ≠ "" := by
  rw [← forall_mem_flatMap, ← map_snd_flatMap_offsets]
  constructor
  · intro h
    have hlength := congrArg List.length h
    rw [length_map, length_map, length_map, length_toolCallsOf, namedCalls,
      eq_comm, countP_eq_length] at hlength
    exact forall_mem_map.2 fun x hx => of_decide_eq_true (hlength x hx)
  · intro h
    rw [toolCallsOf, foldl_addCall_named h, nil_append]
    simp only [map_map]
    rfl

theorem geminiText_eq_iff (ds : List StreamDelta) :
    String.join (ds.map fun d => if d.toolCalls.isSome then "" else d.getContentString) =
        (if ∃ d ∈ ds, d.calls ≠ [] then "" else
          String.join (ds.map getContentString)) ↔
      if ∃ d ∈ ds, d.calls ≠ [] then
        ∀ d ∈ ds, d.toolCalls = none → d.getContentString = ""
      else ∀ d ∈ ds, d.toolCalls.isSome = true → d.getContentString = "" := by
  split_ifs
  · rw [join_eq_empty_iff, forall_mem_map]
    refine forall₂_congr fun d _ => ?_
    rcases d.toolCalls with _ | calls <;> simp
  · rw [join_map_eq_iff]
    · refine forall₂_congr fun d _ => ?_
      rcases d.toolCalls with _ | calls
      · simp
      · exact ⟨fun h _ => h.symm, fun h => (h rfl).symm⟩
    · intro d _
      split_ifs
      · exact .inr rfl
      · exact .inl rfl

theorem toolCalls_choice_iff (i : ℕ) :
    (s.choice i).toolCalls ≠ [] ↔ ∃ d ∈ s.deltas i, d.calls ≠ [] := by
  have hnil : (s.choice i).toolCalls = [] ↔ ∀ d ∈ s.deltas i, d.calls = [] := by
    rw [← flatMap_eq_nil_iff, ← map_snd_flatMap_offsets, map_eq_nil_iff]
    exact toolCallsOf_eq_nil_iff (s.numbered i)
  rw [ne_eq, hnil]
  push Not
  rfl

/-- Stream and whole response agree exactly when every tool call comes in one fragment and no text
is beside the tool calls. -/
theorem agrees_iff : s.Agrees unmarshal estimatePromptTokens ↔ ∀ i ∈ s.indices, s.WholeCalls i := by
  refine forall₂_congr fun i hi => ?_
  have htext : geminiTextOf ((responseOpenAI2Gemini unmarshal s.response).partsOf i) =
      if ∃ d ∈ s.deltas i, d.calls ≠ [] then "" else
        String.join ((s.deltas i).map StreamDelta.getContentString) := by
    rw [s.partsOf_response unmarshal hi]
    simp only [s.toolCalls_choice_iff i]
    split_ifs
    · exact geminiTextOf_calls unmarshal _
    · exact geminiTextOf_geminiText _
  have hcalls : geminiCallsOf ((responseOpenAI2Gemini unmarshal s.response).partsOf i) =
      (toolCallsOf ((s.deltas i).flatMap StreamDelta.offsets)).map (·.geminiCall unmarshal) := by
    rw [s.partsOf_response unmarshal hi]
    split_ifs with h
    · exact geminiCallsOf_calls unmarshal _
    · rw [geminiCallsOf_geminiText, eq_comm, map_eq_nil_iff]
      exact not_not.1 h
  rw [streamParts_eq, htext, hcalls, geminiTextOf_deltas, geminiCallsOf_deltas, WholeCalls,
    geminiCall_eq_iff unmarshal, geminiText_eq_iff, and_comm]

end CutResponse

end

namespace CutResponse

def search : CutResponse where
  chunks :=
    [{ choices :=
        [{ delta := { toolCalls := some [⟨some 0, "call_1", "search", "\x7b\"q\":"⟩] } }] },
      { choices := [{ delta := { toolCalls := some [⟨some 0, "", "", "\"x\"\x7d"⟩] } }] },
      { choices := [{ finishReason := some "tool_calls" }] }]
  indices := [0]
  nodup := nodup_singleton 0
  numbered := fun i => by
    rcases i with _ | i
    · exact ⟨rfl, Nat.one_pos, trivial⟩
    · trivial

def searchDecoder (arguments : String) : Option JsonObject :=
  if arguments = "\x7b\"q\":\"x\"\x7d" then some [("q", .str "x")] else none

/-- The stream has two function calls for the one of the response. -/
theorem search_split : geminiCallsOf (search.streamParts searchDecoder 0 0) =
        [("search", [("arguments", .str "\x7b\"q\":")]), ("", [("arguments", .str "\"x\"\x7d")])] ∧
      geminiCallsOf ((responseOpenAI2Gemini searchDecoder search.response).partsOf 0) =
        [("search", [("q", .str "x")])] ∧
      ¬ search.Agrees searchDecoder 0 := by
  have hstream : geminiCallsOf (search.streamParts searchDecoder 0 0) =
      [("search", [("arguments", .str "\x7b\"q\":")]),
        ("", [("arguments", .str "\"x\"\x7d")])] := rfl
  have hwhole : geminiCallsOf ((responseOpenAI2Gemini searchDecoder search.response).partsOf 0) =
      [("search", [("q", .str "x")])] := rfl
  refine ⟨hstream, hwhole, fun h => ?_⟩
  have hlength := congrArg List.length (h 0 (mem_singleton_self 0)).2
  rw [hstream, hwhole] at hlength
  cases hlength

end CutResponse

end AggreApi
