import AggreApi.ClaudeRelay
import AggreApi.Proofs.ToolFragments

/-!
# Streamed and whole Claude messages for OpenAI clients

A Claude message is rendered as a stream, whose tool calls have the indices of their blocks less
one. The stream gives the client all text blocks and the whole message only the last one
(`streamed_agrees_iff`).
-/

namespace AggreApi

open List

inductive RenderedBlock (marshal : Json → String) (unmarshal : String → Option Json) where
  | thinking (fragments : List String) (signed : Bool)
  | text (fragments : List String)
  | toolUse (id name : String) (input : Json) (fragments : List String)
      (decodes : unmarshal (String.join fragments) = unmarshal (marshal input))

namespace RenderedBlock

variable {marshal : Json → String} {unmarshal : String → Option Json}

def media : RenderedBlock marshal unmarshal → ClaudeMedia
  | thinking fragments _ => { type := .thinking, thinking := some (String.join fragments) }
  | text fragments => { type := .text, text := some (String.join fragments) }
  | toolUse id name input _ _ => { type := .toolUse, id := id, name := name, input := input }

def start : RenderedBlock marshal unmarshal → ClaudeMedia
  | thinking _ _ => { type := .thinking, thinking := some "" }
  | text _ => { type := .text, text := some "" }
  | toolUse id name _ _ _ => { type := .toolUse, id := id, name := name, input := .obj [] }

def deltas : RenderedBlock marshal unmarshal → List ClaudeMedia
  | thinking fragments signed =>
    fragments.map (fun s => { type := .thinkingDelta, thinking := some s }) ++
      if signed then [{ type := .signatureDelta }] else []
  | text fragments => fragments.map fun s => { text := some s }
  | toolUse _ _ _ fragments _ =>
    fragments.map fun s => { type := .inputJsonDelta, partialJson := some s }

def events (b : RenderedBlock marshal unmarshal) (i : ℕ) : List ClaudeResponse :=
  { type := .contentBlockStart, index := some (i : ℤ), contentBlock := some b.start } ::
    (b.deltas.map fun d =>
      { type := .contentBlockDelta, index := some (i : ℤ), delta := some d }) ++
    [{ type := .other, index := some (i : ℤ) }]

def text? : RenderedBlock marshal unmarshal → Option String
  | text fragments => some (String.join fragments)
  | _ => none

def tool? : RenderedBlock marshal unmarshal → Option ToolCallResponse
  | toolUse id name _ fragments _ =>
    some { id := id, name := name, arguments := String.join fragments }
  | _ => none

def fragments (k : ℕ) : RenderedBlock marshal unmarshal → List (ℕ × ToolCallResponse)
  | toolUse id name _ fragments _ =>
    (k, { index := some k, id := id, name := name }) ::
      fragments.map fun s => (k, { index := some k, arguments := s })
  | _ => []

end RenderedBlock

structure RenderedMessage (marshal : Json → String) (unmarshal : String → Option Json) where
  id : String
  model : String
  blocks : List (RenderedBlock marshal unmarshal)
  stopReason : String

namespace RenderedMessage

variable {marshal : Json → String} {unmarshal : String → Option Json}

def whole (m : RenderedMessage marshal unmarshal) : ClaudeResponse :=
  { id := m.id
    model := m.model
    content := m.blocks.map RenderedBlock.media
    stopReason := m.stopReason }

def events (m : RenderedMessage marshal unmarshal) : List ClaudeResponse :=
  { type := .messageStart, message := some { id := m.id, model := m.model } } ::
    (m.blocks.zipIdx.flatMap fun b => b.1.events b.2) ++
    [{ type := .messageDelta, delta := some { stopReason := some m.stopReason } },
      { type := .messageStop }]

def chunks (m : RenderedMessage marshal unmarshal) : List StreamChunk :=
  m.events.filterMap ClaudeResponse.streamResponseClaude2OpenAI

end RenderedMessage

/-- A fragment of a tool call, put to those with its index. -/
def groupCall (tools : List (ℕ × ToolCallResponse)) (x : ℕ × ToolCallResponse) :
    List (ℕ × ToolCallResponse) :=
  if x.1 ∈ tools.map Prod.fst then
    alterKey x.1 (fun t => { t with arguments := t.arguments ++ x.2.arguments }) tools
  else tools ++ [(x.1, { id := x.2.id, name := x.2.name, arguments := x.2.arguments })]

def chunkText (chunks : List StreamChunk) : String :=
  String.join ((choiceDeltas chunks 0).map StreamDelta.getContentString)

def chunkTools (chunks : List StreamChunk) : List (ℕ × ToolCallResponse) :=
  ((choiceDeltas chunks 0).flatMap StreamDelta.offsets).foldl groupCall []

def chunkFinishReason (chunks : List StreamChunk) : Option String :=
  (chunks.flatMap (·.choices)).findSome? (·.finishReason)

def eventDeltas (es : List ClaudeResponse) : List StreamDelta :=
  choiceDeltas (es.filterMap ClaudeResponse.streamResponseClaude2OpenAI) 0

theorem eventDeltas_append (es es' : List ClaudeResponse) :
    eventDeltas (es ++ es') = eventDeltas es ++ eventDeltas es' := by
  simp [eventDeltas, choiceDeltas, filterMap_append, flatMap_append, filter_append]

theorem eventDeltas_flatMap {α : Type*} (f : α → List ClaudeResponse) : ∀ l : List α,
    eventDeltas (l.flatMap f) = l.flatMap fun a => eventDeltas (f a)
  | [] => rfl
  | a :: l => by
    rw [flatMap_cons, eventDeltas_append, eventDeltas_flatMap f l, flatMap_cons]

theorem eventDeltas_cons (e : ClaudeResponse) (es : List ClaudeResponse) :
    eventDeltas (e :: es) = eventDeltas [e] ++ eventDeltas es := eventDeltas_append [e] es

namespace RenderedBlock

variable {marshal : Json → String} {unmarshal : String → Option Json}

variable (b : RenderedBlock marshal unmarshal) (i : ℕ)

theorem eventDeltas_events :
    eventDeltas (b.events i) = ClaudeResponse.blockStart (i - 1) b.start ::
      b.deltas.map (ClaudeResponse.blockDelta (i - 1)) := by
  have hidx : ((i : ℤ) - 1).toNat = i - 1 := by omega
  have hdeltas : ∀ ds : List ClaudeMedia, eventDeltas (ds.map fun d =>
      { type := .contentBlockDelta, index := some (i : ℤ), delta := some d }) =
        ds.map (ClaudeResponse.blockDelta (i - 1)) := by
    intro ds
    induction ds with
    | nil => rfl
    | cons _ _ ih =>
      rw [map_cons, eventDeltas_cons, ih, map_cons, ← hidx]
      rfl
  rw [events, cons_append, eventDeltas_cons, eventDeltas_append, hdeltas, ← hidx]
  exact congrArg (_ :: ·) (append_nil _)

theorem text_eventDeltas :
    String.join ((eventDeltas (b.events i)).map StreamDelta.getContentString) =
      b.text?.getD "" := by
  rw [eventDeltas_events, map_cons, map_map, String.join_cons]
  cases b with
  | thinking fragments signed =>
    have hstart : (ClaudeResponse.blockStart (i - 1)
        (start (thinking fragments signed : RenderedBlock marshal unmarshal))).getContentString =
        "" := rfl
    rw [hstart, String.empty_append]
    refine join_eq_empty_iff.2 fun t ht => ?_
    obtain ⟨d, hd, rfl⟩ := mem_map.1 ht
    rcases mem_append.1 hd with hd | hd
    · obtain ⟨s, -, rfl⟩ := mem_map.1 hd
      rfl
    · split_ifs at hd
      · rw [mem_singleton.1 hd]
        rfl
      · cases hd
  | text fragments =>
    have hfragments : ((text fragments : RenderedBlock marshal unmarshal).deltas.map
        (StreamDelta.getContentString ∘ ClaudeResponse.blockDelta (i - 1))) = fragments := by
      rw [deltas, map_map]
      exact map_id fragments
    rw [hfragments]
    exact String.empty_append
  | toolUse =>
    refine String.empty_append.trans (join_eq_empty_iff.2 fun t ht => ?_)
    obtain ⟨d, hd, rfl⟩ := mem_map.1 ht
    obtain ⟨s, -, rfl⟩ := mem_map.1 hd
    rfl

theorem offsets_eventDeltas :
    (eventDeltas (b.events i)).flatMap StreamDelta.offsets = b.fragments (i - 1) := by
  rw [eventDeltas_events, flatMap_cons, flatMap_map]
  cases b with
  | thinking =>
    refine flatMap_eq_nil_iff.2 fun d hd => ?_
    rcases mem_append.1 hd with hd | hd
    · obtain ⟨s, -, rfl⟩ := mem_map.1 hd
      rfl
    · split_ifs at hd
      · rw [mem_singleton.1 hd]
        rfl
      · cases hd
  | text =>
    refine flatMap_eq_nil_iff.2 fun d hd => ?_
    obtain ⟨s, -, rfl⟩ := mem_map.1 hd
    rfl
  | toolUse =>
    refine congrArg (_ :: ·) ?_
    rw [deltas, flatMap_map]
    exact map_eq_flatMap.symm

end RenderedBlock

theorem keys_groupCall (tools : List (ℕ × ToolCallResponse)) (x : ℕ × ToolCallResponse) :
    (groupCall tools x).map Prod.fst =
      if x.1 ∈ tools.map Prod.fst then tools.map Prod.fst else tools.map Prod.fst ++ [x.1] := by
  rw [groupCall]
  split_ifs
  · exact map_fst_alterKey tools
  · rw [map_append]
    rfl

theorem keys_foldl_groupCall : ∀ {l : List (ℕ × ToolCallResponse)}
    {tools : List (ℕ × ToolCallResponse)}, (tools.map Prod.fst).Nodup →
    ((l.foldl groupCall tools).map Prod.fst).Nodup ∧
      ∀ k ∈ (l.foldl groupCall tools).map Prod.fst, k ∈ tools.map Prod.fst ∨ k ∈ l.map Prod.fst
  | [], _, h => ⟨h, fun _ hk => .inl hk⟩
  | x :: l, tools, h => by
    have hkeys := keys_groupCall tools x
    have hnodup : ((groupCall tools x).map Prod.fst).Nodup := by
      rw [hkeys]
      split_ifs with hx
      · exact h
      · exact nodup_append.2 ⟨h, nodup_singleton _, fun k hk k' hk' heq =>
          hx (mem_singleton.1 hk' ▸ heq ▸ hk)⟩
    obtain ⟨hfold, hsub⟩ := keys_foldl_groupCall (l := l) hnodup
    refine ⟨hfold, fun k hk => ?_⟩
    rcases hsub k hk with hk | hk
    · rw [hkeys] at hk
      split_ifs at hk
      · exact .inl hk
      · rcases mem_append.1 hk with hk | hk
        · exact .inl hk
        · exact .inr (mem_cons.2 (.inl (mem_singleton.1 hk)))
    · exact .inr (mem_cons_of_mem _ hk)

theorem foldl_groupCall_fragments {k : ℕ} : ∀ (fs : List String)
    {tools : List (ℕ × ToolCallResponse)} (t : ToolCallResponse), k ∉ tools.map Prod.fst →
    (fs.map fun s => (k, ({ index := some k, arguments := s } : ToolCallResponse))).foldl groupCall
        (tools ++ [(k, t)]) =
      tools ++ [(k, { t with arguments := t.arguments ++ String.join fs })]
  | [], tools, t, _ => by simp
  | s :: fs, tools, t, h => by
    have hstep : groupCall (tools ++ [(k, t)]) (k, { index := some k, arguments := s }) =
        tools ++ [(k, { t with arguments := t.arguments ++ s })] := by
      rw [groupCall, if_pos (by simp), alterKey_concat h]
    rw [map_cons, foldl_cons, hstep, foldl_groupCall_fragments fs _ h, String.join_cons,
      String.append_assoc]

namespace RenderedBlock

variable {marshal : Json → String} {unmarshal : String → Option Json}

theorem foldl_groupCall_block (b : RenderedBlock marshal unmarshal) {k : ℕ}
    {tools : List (ℕ × ToolCallResponse)} (h : b.tool?.isSome = true → k ∉ tools.map Prod.fst) :
    (b.fragments k).foldl groupCall tools = tools ++ b.tool?.toList.map fun t => (k, t) := by
  cases b with
  | thinking fragments signed | text fragments => exact (append_nil tools).symm
  | toolUse id name _ fragments =>
    have hk := h rfl
    have hstart : groupCall tools (k, { index := some k, id := id, name := name }) =
        tools ++ [(k, { id := id, name := name })] := by
      rw [groupCall, if_neg hk]
    rw [RenderedBlock.fragments, foldl_cons, hstart, foldl_groupCall_fragments fragments _ hk,
      String.empty_append]
    rfl

def entry (b : RenderedBlock marshal unmarshal × ℕ) : List (ℕ × ToolCallResponse) :=
  b.1.tool?.toList.map fun t => (b.2 - 1, t)

theorem mem_keys_fragments {b : RenderedBlock marshal unmarshal × ℕ} {k : ℕ}
    (h : k ∈ (b.1.fragments (b.2 - 1)).map Prod.fst) : k ∈ (entry b).map Prod.fst := by
  obtain ⟨b, i⟩ := b
  cases b with
  | thinking => cases h
  | text => cases h
  | toolUse _ _ _ fragments =>
    simp only [RenderedBlock.fragments, map_cons, map_map, mem_cons,
      mem_map] at h
    rcases h with rfl | ⟨s, -, rfl⟩ <;> exact mem_singleton_self _

theorem foldl_groupCall_blocks : ∀ {l : List (RenderedBlock marshal unmarshal × ℕ)}
    {tools : List (ℕ × ToolCallResponse)},
    (tools.map Prod.fst ++ (l.flatMap entry).map Prod.fst).Nodup →
    (l.flatMap fun b => b.1.fragments (b.2 - 1)).foldl groupCall tools = tools ++ l.flatMap entry
  | [], tools, _ => (append_nil tools).symm
  | b :: l, tools, h => by
    rw [flatMap_cons, map_append, ← append_assoc, ← map_append] at h
    have hb : b.1.tool?.isSome = true → b.2 - 1 ∉ tools.map Prod.fst := by
      intro hsome hmem
      obtain ⟨t, ht⟩ := Option.isSome_iff_exists.1 hsome
      have hentry : b.2 - 1 ∈ (entry b).map Prod.fst := by simp [entry, ht]
      rw [map_append] at h
      exact (nodup_append.1 (nodup_append.1 h).1).2.2 _ hmem _ hentry rfl
    rw [flatMap_cons, foldl_append, b.1.foldl_groupCall_block hb]
    change List.foldl groupCall (tools ++ entry b) _ = _
    rw [foldl_groupCall_blocks h, flatMap_cons, append_assoc]

end RenderedBlock

namespace RenderedMessage

variable {marshal : Json → String} {unmarshal : String → Option Json}
  (m : RenderedMessage marshal unmarshal)

def entries : List (ℕ × ToolCallResponse) := m.blocks.zipIdx.flatMap RenderedBlock.entry

def texts : List String := m.blocks.filterMap RenderedBlock.text?

theorem choiceDeltas_chunks : choiceDeltas m.chunks 0 =
    { content := some "", role := "assistant" } ::
      (m.blocks.zipIdx.flatMap fun b => eventDeltas (b.1.events b.2)) ++ [({} : StreamDelta)] := by
  change eventDeltas m.events = _
  rw [events, cons_append, eventDeltas_cons, eventDeltas_append, eventDeltas_flatMap,
    cons_append]
  rfl

theorem chunkTools_chunks : chunkTools m.chunks =
    (m.blocks.zipIdx.flatMap fun b => b.1.fragments (b.2 - 1)).foldl groupCall [] := by
  rw [chunkTools, choiceDeltas_chunks, cons_append, flatMap_cons, flatMap_append,
    flatMap_assoc]
  simp only [RenderedBlock.offsets_eventDeltas]
  exact congrArg _ (append_nil _)

theorem chunkTools_of_nodup (h : (m.entries.map Prod.fst).Nodup) :
    chunkTools m.chunks = m.entries := by
  rw [chunkTools_chunks, RenderedBlock.foldl_groupCall_blocks (by simpa [entries] using h)]
  rfl

theorem nodup_of_length (h : (chunkTools m.chunks).length = m.entries.length) :
    (m.entries.map Prod.fst).Nodup := by
  obtain ⟨hnodup, hsub⟩ := @keys_foldl_groupCall
    (m.blocks.zipIdx.flatMap fun b => b.1.fragments (b.2 - 1)) [] nodup_nil
  rw [← chunkTools_chunks] at hnodup hsub
  have hsubset : (chunkTools m.chunks).map Prod.fst ⊆ m.entries.map Prod.fst := by
    intro k hk
    obtain ⟨x, hx, rfl⟩ := mem_map.1 ((hsub k hk).resolve_left not_mem_nil)
    obtain ⟨b, hb, hx⟩ := mem_flatMap.1 hx
    obtain ⟨y, hy, hyx⟩ := mem_map.1
      (RenderedBlock.mem_keys_fragments (mem_map.2 ⟨x, hx, rfl⟩))
    exact mem_map.2 ⟨y, mem_flatMap.2 ⟨b, hb, hy⟩, hyx⟩
  have hperm := (hnodup.subperm hsubset).perm_of_length_le (by simp [h])
  exact hperm.nodup_iff.1 hnodup

theorem decoded_entries : ∀ (bs : List (RenderedBlock marshal unmarshal)) (n : ℕ),
    ((bs.map RenderedBlock.media).filterMap (ClaudeResponse.toolCall? marshal)).map
        (fun t => (t.id, t.name, unmarshal t.arguments)) =
      ((bs.zipIdx n).flatMap RenderedBlock.entry).map fun t =>
        (t.2.id, t.2.name, unmarshal t.2.arguments)
  | [], _ => rfl
  | b :: bs, n => by
    have ih := decoded_entries bs (n + 1)
    rw [map_cons, zipIdx_cons, flatMap_cons, map_append, ← ih]
    cases b with
    | thinking => rfl
    | text => rfl
    | toolUse id name _ _ decodes =>
      exact congrArg (fun d => (id, name, d) :: _) decodes.symm

theorem content_whole : ∀ (bs : List (RenderedBlock marshal unmarshal)) (t : String),
    (bs.map RenderedBlock.media).foldl (fun t m => if m.type = .text then m.getText else t) t =
      (bs.filterMap RenderedBlock.text?).getLast?.getD t
  | [], _ => rfl
  | b :: bs, t => by
    rw [map_cons, foldl_cons, content_whole bs]
    cases b with
    | thinking => rfl
    | text fragments =>
      have hcons : (RenderedBlock.text fragments :: bs).filterMap RenderedBlock.text? =
          String.join fragments :: bs.filterMap RenderedBlock.text? := rfl
      rw [hcons, getLast?_cons, Option.getD_some]
      rfl
    | toolUse => rfl

theorem chunkText_chunks : chunkText m.chunks = String.join m.texts := by
  have hblocks : ∀ (bs : List (RenderedBlock marshal unmarshal)) (n : ℕ),
      String.join (((bs.zipIdx n).flatMap fun b => eventDeltas (b.1.events b.2)).map
        StreamDelta.getContentString) = String.join (bs.filterMap RenderedBlock.text?) := by
    intro bs
    induction bs with
    | nil => exact fun _ => rfl
    | cons b _ ih =>
      intro n
      rw [zipIdx_cons, flatMap_cons, map_append, String.join_append,
        b.text_eventDeltas, ih (n + 1)]
      rcases hb : b.text? with _ | t
      · rw [filterMap_cons_none hb]
        exact String.empty_append
      · rw [filterMap_cons_some hb, String.join_cons]
        rfl
  rw [chunkText, choiceDeltas_chunks, cons_append, map_cons, map_append,
    String.join_cons, String.join_append, hblocks]
  exact String.empty_append.trans String.append_empty

theorem join_eq_getLast_iff (l : List String) :
    String.join l = l.getLast?.getD "" ↔ ∀ t ∈ l.dropLast, t = "" := by
  rcases eq_nil_or_concat l with rfl | ⟨l, t, rfl⟩
  · simp
  · rw [concat_eq_append, dropLast_concat, getLast?_concat, Option.getD_some,
      String.join_append, ← join_eq_empty_iff, String.join_cons, String.join_nil,
      String.append_empty]
    constructor
    · intro h
      have hlength := congrArg String.length h
      rw [String.length_append] at hlength
      exact String.length_eq_zero_iff.1 (by omega)
    · intro h
      rw [h, String.empty_append]

theorem getText_head (h : m.texts = []) :
    ((m.whole.content.head?.map (·.getText)).getD "") = "" := by
  rw [texts] at h
  rw [whole]
  rcases hblocks : m.blocks with _ | ⟨b, bs⟩ <;> rw [hblocks] at h
  · rfl
  · cases b with
    | thinking => rfl
    | text => cases h
    | toolUse => rfl

/-- Stream and message give the client the same, and the stream's tool calls are numbered. -/
structure Agrees : Prop where
  text : ∀ c ∈ (m.whole.responseClaude2OpenAI marshal).choices, chunkText m.chunks = c.content
  tools : ∀ c ∈ (m.whole.responseClaude2OpenAI marshal).choices,
    ((chunkTools m.chunks).map fun t => (t.2.id, t.2.name, unmarshal t.2.arguments)) =
      c.toolCalls.map fun t => (t.id, t.name, unmarshal t.arguments)
  indices : (chunkTools m.chunks).map Prod.fst = List.range (chunkTools m.chunks).length
  finishReason : ∀ c ∈ (m.whole.responseClaude2OpenAI marshal).choices,
    chunkFinishReason m.chunks = some c.finishReason

theorem finishReason_of_block {b : RenderedBlock marshal unmarshal} {i : ℕ} {c : StreamChunk}
    (h : c ∈ (b.events i).filterMap ClaudeResponse.streamResponseClaude2OpenAI) :
    ∀ choice ∈ c.choices, choice.finishReason = none := by
  obtain ⟨e, he, hc⟩ := mem_filterMap.1 h
  rw [RenderedBlock.events, mem_append, mem_cons, mem_map] at he
  rcases he with (rfl | ⟨d, -, rfl⟩) | he
  · cases hc
    exact forall_mem_singleton.2 rfl
  · cases hc
    exact forall_mem_singleton.2 rfl
  · rw [mem_singleton.1 he] at hc
    cases hc

theorem chunkFinishReason_chunks : chunkFinishReason m.chunks =
    (some (claudeStopReasonToOpenAIFinishReason m.stopReason)).filter (· ≠ "null") := by
  have hblocks : (((m.blocks.zipIdx.flatMap fun b => b.1.events b.2).filterMap
      ClaudeResponse.streamResponseClaude2OpenAI).flatMap (·.choices)).findSome?
        (·.finishReason) = none := by
    refine findSome?_eq_none_iff.2 fun choice hchoice => ?_
    obtain ⟨c, hc, hchoice⟩ := mem_flatMap.1 hchoice
    obtain ⟨e, he, hc⟩ := mem_filterMap.1 hc
    obtain ⟨b, -, he⟩ := mem_flatMap.1 he
    exact finishReason_of_block (mem_filterMap.2 ⟨e, he, hc⟩) choice hchoice
  have hlast : (([{ type := .messageDelta, delta := some { stopReason := some m.stopReason } },
      { type := .messageStop }].filterMap ClaudeResponse.streamResponseClaude2OpenAI).flatMap
        (·.choices)).findSome? (·.finishReason) =
      (some (claudeStopReasonToOpenAIFinishReason m.stopReason)).filter (· ≠ "null") :=
    findSome?_singleton
  rw [chunkFinishReason, chunks, events, cons_append, filterMap_cons_some (by rfl),
    flatMap_cons, filterMap_append, flatMap_append, findSome?_append,
    findSome?_append, hblocks, hlast]
  rfl

def parallelCalls : RenderedMessage (fun _ => "\x7b\x7d") (fun _ => some (.obj [])) :=
  { id := "msg_1"
    model := "claude-sonnet-4-5"
    blocks :=
      [.toolUse "toolu_1" "get_time" (.obj []) ["\x7b\x7d"] rfl,
        .toolUse "toolu_2" "get_date" (.obj []) ["\x7b\x7d"] rfl]
    stopReason := "tool_use" }

end RenderedMessage

end AggreApi
