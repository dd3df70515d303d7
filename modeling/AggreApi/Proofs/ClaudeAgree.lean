import AggreApi.Proofs.ClaudeStream

/-!
# Streamed and whole responses for Claude clients

A stream is cut from a response, and `OpenAIStream.response` is what its fragments add up to. What
the client has of the tool calls is followed by their blocks (`OpenBlocks.Follows`): a fragment that
comes after other content is sent for a block that never started.
-/

namespace AggreApi

open List ClaudeEvent OpenBlocks

variable {b : OpenBlocks} {e : ClaudeEvent} {x : StreamItem} {c : StreamChunk}
  (es : List ClaudeEvent) (s : OpenAIStream) (usage : TokenUsage)

namespace ClaudeEvent

def text : ClaudeEvent → String
  | .blockDelta _ (.text s) => s
  | _ => ""

def readTool (tools : List (ℕ × ToolCallResponse)) : ClaudeEvent → List (ℕ × ToolCallResponse)
  | .blockStart i (.toolUse id name) => tools ++ [(i, { id := id, name := name })]
  | .blockDelta i (.inputJson s) =>
    alterKey i (fun t => { t with arguments := t.arguments ++ s }) tools
  | _ => tools

def stopReason? : ClaudeEvent → Option String
  | .messageDelta _ reason => some reason
  | _ => none

end ClaudeEvent

def eventText : String := String.join (es.map text)

/-- The tool calls of a stream of events, in the order in which they start. -/
def eventTools : List ToolCallResponse := (es.foldl readTool []).map Prod.snd

def eventStopReason : Option String := es.findSome? stopReason?

namespace ClaudeContent

def text? : ClaudeContent → Option String
  | text s => some s
  | toolUse _ _ _ => none

def tool? : ClaudeContent → Option (String × String × Json)
  | text _ => none
  | toolUse id name input => some (id, name, input)

end ClaudeContent

namespace ClaudeMessage

def text (m : ClaudeMessage) : String := String.join (m.content.filterMap ClaudeContent.text?)

/-- The tool blocks of a whole message. -/
def tools (m : ClaudeMessage) : List (String × String × Json) :=
  m.content.filterMap ClaudeContent.tool?

end ClaudeMessage

namespace StreamChunk

def text (c : StreamChunk) : String := c.choices.head?.elim "" (·.delta.getContentString)

def reasoning (c : StreamChunk) : String := c.choices.head?.elim "" (·.delta.getReasoningContent)

end StreamChunk

namespace OpenAIStream

def cut : List StreamChunk := s.content ++ [s.last]

/-- The response of a stream. -/
def response : TextResponse :=
  { id := s.last.id
    model := s.last.model
    choices :=
      [{ content := String.join (s.cut.map StreamChunk.text)
         reasoningContent := String.join (s.cut.map StreamChunk.reasoning)
         toolCalls := toolCallsOf (s.cut.flatMap StreamChunk.offsets)
         finishReason := s.reason }] }

def converted : List StreamItem :=
  match s.cut with
  | [] => []
  | first :: rest => first.firstItems ++ rest.flatMap StreamChunk.items

end OpenAIStream

namespace StreamChunk

theorem convertStream_cons (info : StreamInfo) (c : StreamChunk) {cs : List StreamChunk}
    (h : cs ≠ []) :
    convertStream usage info (c :: cs) =
      (c.handleStreamFormat info).1 ++ convertStream usage (c.handleStreamFormat info).2 cs := by
  obtain ⟨c', cs', rfl⟩ := exists_cons_of_ne_nil h
  rfl

theorem convertStream_rest (usage : TokenUsage) {f : StreamChunk} {reason : String}
    (hf : f.finish? = some reason) : ∀ (rest : List StreamChunk) (info : StreamInfo),
      info.done = false → 1 ≤ info.sendResponseCount → (∀ c ∈ rest, c.finish? = none) →
      ∃ known, convertStream usage info (rest ++ [f]) =
        (info.blocks.convertAll ((rest ++ [f]).flatMap items)).1 ++
          ((info.blocks.convertAll ((rest ++ [f]).flatMap items)).2.stops ++
            closing (some known) reason)
  | [], info, hdone, hcount, _ => by
    have hevents := (convertNext_some hf (f.received { info with usage := some usage })).1
    have hnext := @handleStreamFormat_next f { info with usage := some usage } hdone hcount
    have hlast : convertStream usage info [f] =
        (f.handleStreamFormat { info with usage := some usage }).1 := rfl
    have hknown : f.usage.or (f.usage.or (some usage)) = some (f.usage.getD usage) := by
      cases f.usage <;> rfl
    refine ⟨f.usage.getD usage, ?_⟩
    rw [nil_append, hlast, hnext, hevents, flatMap_singleton, ← hknown]
    rfl
  | c :: rest, info, hdone, hcount, hrest => by
    have hc := convertNext_none (hrest c mem_cons_self) (c.received info)
    obtain ⟨known, hevents⟩ := convertStream_rest usage hf rest
      ((c.received info).withBlocks (info.blocks.convertAll c.items).2) hdone (Nat.succ_pos _)
      fun c hc => hrest c (mem_cons_of_mem _ hc)
    refine ⟨known, ?_⟩
    rw [cons_append, convertStream_cons _ _ _ (by simp),
      handleStreamFormat_next c hdone hcount, hc, flatMap_cons,
      OpenBlocks.convertAll_append, append_assoc]
    exact congrArg _ hevents

theorem convertStream_single {f : StreamChunk} {reason : String} (hf : f.finish? = some reason)
    (hnum : Numbered 0 f.offsets) (promptTokens : ℤ) :
    convertStream usage { estimatePromptTokens := promptTokens } [f] =
      .messageStart f.id f.model promptTokens ::
        ((convertAll {} f.firstItems).1 ++
          ((convertAll {} f.firstItems).2.stops ++
            closing (some (f.usage.getD usage)) reason)) := by
  have hb : (f.received { estimatePromptTokens := promptTokens, usage := some usage }).blocks =
      {} := rfl
  have hlast : convertStream usage { estimatePromptTokens := promptTokens } [f] =
      (f.convertFirst
        (f.received { estimatePromptTokens := promptTokens, usage := some usage })).1 :=
    rfl
  have hknown : f.usage.or (f.usage.or (some usage)) = some (f.usage.getD usage) := by
    cases f.usage <;> rfl
  rw [hlast, (convertFirst_some hf hnum hb).1, ← hknown]
  rfl

end StreamChunk

namespace OpenAIStream

theorem convertStream_eq (promptTokens : ℤ) :
    ∃ id model known,
      StreamChunk.convertStream usage { estimatePromptTokens := promptTokens } s.cut =
        .messageStart id model promptTokens :: ((convertAll {} s.converted).1 ++
          ((convertAll {} s.converted).2.stops ++
            StreamChunk.closing (some known) s.reason)) := by
  obtain ⟨content, last, trailing, reason, hcontent, hlast, -, hnum⟩ := s
  rw [converted, cut]
  rcases content with _ | ⟨first, rest⟩
  · have hnum : Numbered 0 last.offsets := by simpa using hnum
    have hevents := StreamChunk.convertStream_single usage hlast hnum promptTokens
    refine ⟨last.id, last.model, last.usage.getD usage, ?_⟩
    simpa only [nil_append, flatMap_nil, append_nil] using hevents
  · have hfirst := hcontent first mem_cons_self
    have hrest : ∀ c ∈ rest, c.finish? = none := fun c hc => hcontent c (mem_cons_of_mem _ hc)
    have hnum : Numbered 0 first.offsets := (numbered_append_iff.1 hnum).1
    obtain ⟨known, hevents⟩ := StreamChunk.convertStream_rest usage hlast rest
      ((first.received { estimatePromptTokens := promptTokens }).withBlocks
        (convertAll {} first.firstItems).2) rfl le_rfl hrest
    refine ⟨first.id, first.model, known, ?_⟩
    rw [cons_append, StreamChunk.convertStream_cons _ _ _ (by simp),
      StreamChunk.handleStreamFormat_first hfirst hnum, hevents, convertAll_append,
      cons_append, append_assoc]
    rfl

end OpenAIStream

theorem eventText_append (es' : List ClaudeEvent) :
    eventText (es ++ es') = eventText es ++ eventText es' := by
  rw [eventText, map_append, String.join_append, eventText, eventText]

def StreamItem.spokenText : StreamItem → String
  | .text s => s
  | _ => ""

namespace OpenBlocks

theorem mem_stops (h : e ∈ b.stops) : ∃ i, e = .blockStop i := by
  rw [stops] at h
  split at h
  · exact ⟨_, mem_singleton.1 h⟩
  · exact ⟨_, mem_singleton.1 h⟩
  · obtain ⟨o, -, rfl⟩ := mem_map.1 h
    exact ⟨_, rfl⟩
  · cases h

theorem mem_turnStops {type : LastMessageType}
    (h : e ∈ b.turnStops type) : ∃ i, e = .blockStop i := by
  rw [turnStops] at h
  split_ifs at h
  · cases h
  · exact mem_stops h

theorem eventText_of_stops {es : List ClaudeEvent} (h : ∀ e ∈ es, ∃ i, e = .blockStop i) :
    eventText es = "" := by
  refine join_eq_empty_iff.2 fun t ht => ?_
  obtain ⟨e, he, rfl⟩ := mem_map.1 ht
  obtain ⟨i, rfl⟩ := h e he
  rfl

theorem eventText_say (b : OpenBlocks) (type : LastMessageType) {block : ClaudeBlock}
    (delta : ClaudeDelta) :
    eventText (b.say type block delta).1 = ClaudeEvent.text (.blockDelta 0 delta) := by
  rw [say, append_assoc, eventText_append, eventText_of_stops fun _ => mem_turnStops,
    String.empty_append]
  split_ifs <;> cases delta <;> simp [eventText, text]

theorem eventText_convert (b : OpenBlocks) (x : StreamItem) :
    eventText (b.convert x).1 = x.spokenText := by
  cases x with
  | call =>
    rw [convert, eventText_append, eventText_of_stops fun _ => mem_turnStops, String.empty_append,
      toolEvents]
    split_ifs <;> simp [eventText, ClaudeEvent.text, StreamItem.spokenText]
  | thinking t | text t => exact b.eventText_say _ _

theorem eventText_convertAll : ∀ (xs : List StreamItem) (b : OpenBlocks),
    eventText (b.convertAll xs).1 = String.join (xs.map StreamItem.spokenText)
  | [], _ => rfl
  | x :: xs, b => by
    rw [convertAll, eventText_append, eventText_convert, eventText_convertAll xs, map_cons,
      String.join_cons]

theorem stopReason?_of_mem_convert (h : e ∈ (b.convert x).1) : e.stopReason? = none := by
  have hstop : ∀ {type}, e ∈ b.turnStops type → e.stopReason? = none := by
    intro type h
    obtain ⟨i, rfl⟩ := mem_turnStops h
    rfl
  have hsay : ∀ {type block delta}, e ∈ (b.say type block delta).1 → e.stopReason? = none := by
    intro type block delta h
    simp only [say, mem_append, mem_singleton] at h
    rcases h with (h | h) | rfl
    · exact hstop h
    · split_ifs at h
      · cases h
      · rw [mem_singleton.1 h]
        rfl
    · rfl
  cases x with
  | call =>
    simp only [convert, toolEvents, mem_append] at h
    rcases h with h | h | h
    · exact hstop h
    · split_ifs at h
      · rw [mem_singleton.1 h]
        rfl
      · cases h
    · split_ifs at h
      · rw [mem_singleton.1 h]
        rfl
      · cases h
  | thinking => exact hsay h
  | text => exact hsay h

theorem stopReason?_of_mem_convertAll : ∀ {xs : List StreamItem} {b : OpenBlocks} {e : ClaudeEvent},
    e ∈ (b.convertAll xs).1 → e.stopReason? = none
  | x :: xs, b, e, h => by
    rcases mem_append.1 h with h | h
    · exact stopReason?_of_mem_convert h
    · exact stopReason?_of_mem_convertAll h

theorem events_read (id model : String) (promptTokens : ℤ) (xs : List StreamItem)
    (known : TokenUsage) (reason : String) :
    eventText (.messageStart id model promptTokens :: ((convertAll {} xs).1 ++
        ((convertAll {} xs).2.stops ++ StreamChunk.closing (some known) reason))) =
      String.join (xs.map StreamItem.spokenText) ∧
    eventStopReason (.messageStart id model promptTokens :: ((convertAll {} xs).1 ++
        ((convertAll {} xs).2.stops ++ StreamChunk.closing (some known) reason))) =
      some (openAIFinishReasonToClaudeStopReason reason) := by
  constructor
  · have hclosing : eventText (StreamChunk.closing (some known) reason) = "" := rfl
    have hstart : ∀ es, eventText (.messageStart id model promptTokens :: es) = eventText es := by
      intro es
      rw [eventText, map_cons, String.join_cons]
      exact String.empty_append
    rw [hstart, eventText_append, eventText_append, eventText_convertAll,
      eventText_of_stops fun _ => mem_stops, hclosing, String.append_empty, String.append_empty]
  · have hitems : (convertAll {} xs).1.findSome? stopReason? = none :=
      findSome?_eq_none_iff.2 fun _ => stopReason?_of_mem_convertAll
    have hstops : (convertAll {} xs).2.stops.findSome? stopReason? = none := by
      refine findSome?_eq_none_iff.2 fun e he => ?_
      obtain ⟨i, rfl⟩ := mem_stops he
      rfl
    rw [eventStopReason, findSome?_cons, findSome?_append, hitems, findSome?_append,
      hstops]
    rfl

end OpenBlocks

namespace OpenBlocks

theorem foldl_readTool_of_stops : ∀ {es : List ClaudeEvent}, (∀ e ∈ es, ∃ i, e = .blockStop i) →
    ∀ tools, es.foldl readTool tools = tools
  | [], _, _ => rfl
  | e :: es, h, tools => by
    obtain ⟨⟨i, rfl⟩, hes⟩ := forall_mem_cons.1 h
    exact foldl_readTool_of_stops hes tools

theorem foldl_readTool_spoken (b : OpenBlocks) (hx : x.isCall = false)
    (tools : List (ℕ × ToolCallResponse)) :
    (b.convert x).1.foldl readTool tools = tools := by
  cases x with
  | call => cases hx
  | thinking t | text t =>
    rw [convert, say, foldl_append, foldl_append,
      foldl_readTool_of_stops fun _ => mem_turnStops]
    split_ifs <;> rfl

theorem foldl_readTool_call (b : OpenBlocks) (o : ℕ) (c : ToolCallResponse)
    (tools : List (ℕ × ToolCallResponse)) :
    (b.convert (.call o c)).1.foldl readTool tools =
      alterKey ((b.turn .tools).base + o)
        (fun t => { t with arguments := t.arguments ++ c.arguments })
        (tools ++ if c.name ≠ "" then
          [((b.turn .tools).base + o, { id := c.id, name := c.name })] else []) := by
  have hargs : ∀ tools, (if c.arguments ≠ "" then
        [blockDelta ((b.turn .tools).base + o) (.inputJson c.arguments)]
      else []).foldl readTool tools =
      alterKey ((b.turn .tools).base + o)
        (fun t => { t with arguments := t.arguments ++ c.arguments }) tools := by
    intro tools
    split_ifs with h
    · rfl
    · rw [alterKey_of_fixed fun t => by rw [not_not.1 h, String.append_empty]]
      rfl
  rw [convert, foldl_append, foldl_readTool_of_stops fun _ => mem_turnStops, toolEvents,
    foldl_append, hargs]
  split_ifs <;> simp [ClaudeEvent.readTool]

theorem eventTools_message (id model : String) (promptTokens : ℤ) (xs : List StreamItem)
    (known : TokenUsage) (reason : String) :
    eventTools (.messageStart id model promptTokens :: ((convertAll {} xs).1 ++
        ((convertAll {} xs).2.stops ++ StreamChunk.closing (some known) reason))) =
      ((convertAll {} xs).1.foldl readTool []).map Prod.snd := by
  rw [eventTools, foldl_cons, foldl_append, foldl_append,
    foldl_readTool_of_stops fun _ => mem_stops]
  rfl

theorem argumentsLength_readTool : ∀ (xs : List StreamItem) (b : OpenBlocks)
    (tools : List (ℕ × ToolCallResponse)),
    argumentsLength (((b.convertAll xs).1.foldl readTool tools).map Prod.snd) ≤
      argumentsLength (tools.map Prod.snd) +
        argumentsLength ((StreamItem.calls xs).map Prod.snd)
  | [], _, _ => Nat.le_add_right _ _
  | x :: xs, b, tools => by
    rw [convertAll, foldl_append]
    refine (argumentsLength_readTool xs _ _).trans ?_
    rcases x.call_or_spoken with ⟨o, c, rfl⟩ | hx
    · rw [foldl_readTool_call, map_snd_alterKey, argumentsLength_modify]
      split_ifs <;> simp [argumentsLength, StreamItem.calls] <;> omega
    · rw [foldl_readTool_spoken b hx, StreamItem.calls_spoken hx]

theorem length_readTool : ∀ (xs : List StreamItem) (b : OpenBlocks)
    (tools : List (ℕ × ToolCallResponse)),
    ((b.convertAll xs).1.foldl readTool tools).length =
      tools.length + namedCalls (StreamItem.calls xs)
  | [], _, _ => rfl
  | x :: xs, b, tools => by
    rw [convertAll, foldl_append, length_readTool]
    rcases x.call_or_spoken with ⟨o, c, rfl⟩ | hx
    · have hkeys := congrArg List.length (map_fst_alterKey (k := (b.turn .tools).base + o)
        (f := fun t => { t with arguments := t.arguments ++ c.arguments })
        (tools ++ if c.name ≠ "" then
          [((b.turn .tools).base + o, { id := c.id, name := c.name })] else []))
      rw [length_map, length_map] at hkeys
      rw [foldl_readTool_call, hkeys]
      split_ifs with hname <;> simp [StreamItem.calls, namedCalls, hname]
      omega
    · rw [foldl_readTool_spoken b hx, StreamItem.calls_spoken hx]

/-- The tool blocks a client has, by their indices. -/
structure Follows (b : OpenBlocks) (keys : List ℕ) (run : ℕ) : Prop where
  le : run ≤ keys.length
  nodup : keys.Nodup
  older : ∀ p k, p < run → keys[p]? = some k → k < (b.turn .tools).base
  present : ∀ p k, run ≤ p → keys[p]? = some k → b.last = .tools ∧ k = b.base + p ∧ p ≤ b.top

theorem turn_base_of_ne (h : b.last ≠ .tools) : (b.turn .tools).base = b.advance.index := by
  rw [turn, if_neg h, if_pos rfl]

theorem advance_index_tools (h : b.last = .tools) : b.advance.index = b.base + b.top + 1 := by
  rw [advance, h]

namespace Follows

variable {b : OpenBlocks} {keys : List ℕ} {run : ℕ}

section
variable (h : b.Follows keys run)
include h

theorem lt_advance {p k : ℕ} (hk : keys[p]? = some k) : k < b.advance.index := by
  rcases Nat.lt_or_ge p run with hp | hp
  · have hlt := h.older p k hp hk
    by_cases hlast : b.last = .tools
    · have hturn : b.turn .tools = b := if_pos hlast
      rw [hturn] at hlt
      rw [advance_index_tools hlast]
      omega
    · rwa [turn_base_of_ne hlast] at hlt
  · obtain ⟨hlast, rfl, htop⟩ := h.present p k hp hk
    rw [advance_index_tools hlast]
    omega

theorem notMem {o : ℕ} (ho : o < run ∨ o = keys.length) : (b.turn .tools).base + o ∉ keys := by
  intro hmem
  obtain ⟨p, hp⟩ := getElem?_of_mem hmem
  rcases Nat.lt_or_ge p run with hlt | hge
  · have := h.older p _ hlt hp
    omega
  · obtain ⟨hlast, hk, -⟩ := h.present p _ hge hp
    have hturn : b.turn .tools = b := if_pos hlast
    have hpl := (List.getElem?_eq_some_iff.1 hp).1
    rw [hturn] at hk
    omega

theorem idxOf_eq {o : ℕ} (hrun : run ≤ o) (ho : o < keys.length) :
    keys.idxOf ((b.turn .tools).base + o) = o := by
  obtain ⟨hlast, hk, -⟩ := h.present o keys[o] hrun (getElem?_eq_getElem ho)
  have hturn : b.turn .tools = b := if_pos hlast
  rw [hturn, ← hk]
  exact h.nodup.idxOf_getElem o ho

theorem fragment (o : ℕ) (c : ToolCallResponse) : (b.convert (.call o c)).2.Follows keys run := by
  have hlast : (b.convert (.call o c)).2.last = .tools := b.turn_last .tools
  have hturn : (b.convert (.call o c)).2.turn .tools = (b.convert (.call o c)).2 := if_pos hlast
  refine ⟨h.le, h.nodup, fun p k hp hk => ?_, fun p k hp hk => ⟨hlast, ?_⟩⟩
  · rw [hturn]
    exact h.older p k hp hk
  · obtain ⟨hb, hkp, htop⟩ := h.present p k hp hk
    have hturn' : b.turn .tools = b := if_pos hb
    refine ⟨?_, ?_⟩
    · change k = (b.turn .tools).base + p
      rw [hturn', hkp]
    · change p ≤ max (b.turn .tools).top o
      rw [hturn']
      exact htop.trans (Nat.le_max_left _ _)

theorem named (c : ToolCallResponse) :
    (b.convert (.call keys.length c)).2.Follows
      (keys ++ [(b.turn .tools).base + keys.length]) run := by
  have hfragment := h.fragment keys.length c
  refine ⟨by simpa using h.le.trans (Nat.le_succ _), ?_, fun p k hp hk => ?_, fun p k hp hk => ?_⟩
  · exact nodup_append.2 ⟨h.nodup, nodup_singleton _, fun k hk k' hk' => by
      rintro rfl
      exact h.notMem (.inr rfl) (mem_singleton.1 hk' ▸ hk)⟩
  · rw [getElem?_append_left (hp.trans_le h.le)] at hk
    exact hfragment.older p k hp hk
  · rcases Nat.lt_trichotomy p keys.length with hlt | rfl | hgt
    · rw [getElem?_append_left hlt] at hk
      exact hfragment.present p k hp hk
    · rw [getElem?_concat_length, Option.some.injEq] at hk
      refine ⟨b.turn_last .tools, hk.symm, ?_⟩
      exact Nat.le_max_right (b.turn .tools).top keys.length
    · rw [getElem?_eq_none (by simpa using hgt)] at hk
      cases hk

theorem spoken (hx : x.isCall = false) : (b.convert x).2.Follows keys keys.length := by
  obtain ⟨type, htype, hb⟩ : ∃ type : LastMessageType, (type = .thinking ∨ type = .text) ∧
      (b.convert x).2 = b.turn type := by
    cases x with
    | call => cases hx
    | thinking => exact ⟨.thinking, .inl rfl, rfl⟩
    | text => exact ⟨.text, .inr rfl, rfl⟩
  have hlast : (b.turn type).last ≠ .tools := by
    rw [turn_last]
    rcases htype with rfl | rfl <;> decide
  rw [hb]
  refine ⟨le_rfl, h.nodup, fun p k hp hk => ?_, fun p k hp hk => ?_⟩
  · have hlt := h.lt_advance hk
    rw [turn_base_of_ne hlast]
    by_cases hsame : b.last = type
    · rwa [turn, if_pos hsame]
    · have hnext : (b.turn type).advance.index = b.advance.index + 1 := by
        rw [turn, if_neg hsame]
        rcases htype with rfl | rfl <;> rfl
      rw [hnext]
      exact hlt.trans (Nat.lt_succ_self _)
  · rw [getElem?_eq_none hp] at hk
    cases hk

end

end Follows

end OpenBlocks

namespace StreamItem

def Kept : ℕ → ℕ → List StreamItem → Prop
  | _, _, [] => True
  | run, n, .call o c :: xs =>
    if c.name ≠ "" then Kept run (n + 1) xs
    else (c.arguments = "" ∨ run ≤ o) ∧ Kept run n xs
  | _, n, _ :: xs => Kept n n xs

theorem kept_spoken (hx : x.isCall = false) (run n : ℕ) (xs : List StreamItem) :
    Kept run n (x :: xs) ↔ Kept n n xs := by
  cases x with
  | call => cases hx
  | thinking => rfl
  | text => rfl

end StreamItem

namespace OpenBlocks

open StreamItem (calls Kept)

theorem readTool_ne {xs : List StreamItem} {tools : List (ℕ × ToolCallResponse)}
    {whole : List ToolCallResponse} (hnum : Numbered whole.length (calls xs))
    (h : argumentsLength (tools.map Prod.snd) < argumentsLength whole) :
    ((b.convertAll xs).1.foldl readTool tools).map Prod.snd ≠
      (calls xs).foldl addCall whole := by
  intro heq
  have hle := argumentsLength_readTool xs b tools
  rw [heq, argumentsLength_foldl_addCall hnum] at hle
  omega

theorem readTool_eq_iff : ∀ {xs : List StreamItem} {b : OpenBlocks}
    {tools : List (ℕ × ToolCallResponse)} {run : ℕ}, b.Follows (tools.map Prod.fst) run →
    Numbered tools.length (calls xs) →
    (((b.convertAll xs).1.foldl readTool tools).map Prod.snd =
        (calls xs).foldl addCall (tools.map Prod.snd) ↔ Kept run tools.length xs)
  | [], _, _, _, _, _ => by simp [convertAll, calls, Kept]
  | x :: xs, b, tools, run, h, hnum => by
    rcases x.call_or_spoken with ⟨o, c, rfl⟩ | hx
    · simp only [calls, Numbered] at hnum
      rw [convertAll, foldl_append, foldl_readTool_call, calls, foldl_cons, Kept]
      by_cases hname : c.name = ""
      · rw [if_neg (not_not_intro hname)] at hnum ⊢
        obtain ⟨ho, hnum⟩ := hnum
        rw [if_neg (not_not_intro hname), append_nil]
        by_cases hrun : run ≤ o
        · have hsnd : (alterKey ((b.turn .tools).base + o)
              (fun t => { t with arguments := t.arguments ++ c.arguments }) tools).map Prod.snd =
              addCall (tools.map Prod.snd) (o, c) := by
            rw [map_snd_alterKey, h.idxOf_eq hrun (by rwa [length_map]), addCall,
              if_neg (not_not_intro hname)]
          have hlength := congrArg List.length hsnd
          rw [length_addCall_fragment _ hname, length_map, length_map] at hlength
          rw [and_iff_right (.inr hrun), ← hsnd, ← hlength]
          refine readTool_eq_iff ?_ (hlength ▸ hnum)
          rw [map_fst_alterKey]
          exact h.fragment o c
        · rw [alterKey_of_notMem (h.notMem (.inl (Nat.lt_of_not_le hrun)))]
          by_cases hargs : c.arguments = ""
          · rw [addCall_blank _ hname hargs, and_iff_right (.inl hargs)]
            exact readTool_eq_iff (h.fragment o c) hnum
          · refine iff_of_false (readTool_ne ?_ ?_) fun hkept => hkept.1.elim hargs hrun
            · rwa [length_addCall_fragment _ hname, length_map]
            · rw [argumentsLength_addCall_fragment (by rwa [length_map]) hname]
              exact Nat.lt_add_of_pos_right (Nat.pos_of_ne_zero fun hzero =>
                hargs (String.length_eq_zero_iff.1 hzero))
      · rw [if_pos hname] at hnum ⊢
        obtain ⟨rfl, hnum⟩ := hnum
        have hnotMem := h.notMem (.inr (length_map ..).symm)
        rw [if_pos hname, alterKey_concat hnotMem]
        have hsnd : (tools ++ [((b.turn .tools).base + tools.length,
            ({ id := c.id, name := c.name, arguments := "" ++ c.arguments } :
              ToolCallResponse))]).map Prod.snd =
            addCall (tools.map Prod.snd) (tools.length, c) := by
          rw [addCall, if_pos hname, map_append, String.empty_append]
          rfl
        have hfollows := h.named c
        rw [length_map] at hfollows
        rw [← hsnd]
        refine (@readTool_eq_iff _ _ _ run ?_ ?_).trans ?_
        · rw [map_append]
          exact hfollows
        · rw [length_append]
          exact hnum
        · rw [length_append]
          rfl
    · rw [StreamItem.calls_spoken hx] at hnum ⊢
      rw [convertAll, foldl_append, foldl_readTool_spoken b hx, StreamItem.kept_spoken hx]
      have hspoken := h.spoken hx
      rw [length_map] at hspoken
      exact readTool_eq_iff hspoken hnum

end OpenBlocks

namespace StreamChunk

def dropped (c : StreamChunk) : List ToolCallResponse :=
  c.choices.head?.elim [] (·.delta.calls.tail)

theorem offsets_eq_append (h : Numbered 0 c.offsets) :
    ∃ l, c.offsets = StreamItem.calls c.firstItems ++ l ∧ l.map Prod.snd = c.dropped := by
  rw [offsets] at h ⊢
  rw [firstItems, dropped]
  rcases hhead : c.choices.head? with _ | choice <;> rw [hhead] at h
  · exact ⟨[], rfl, rfl⟩
  · rw [Option.elim_some] at h ⊢
    rw [Option.elim_some, Option.elim_some, StreamDelta.firstItems, StreamItem.calls_append,
      StreamItem.calls_eq_nil_of_spoken, append_nil]
    rw [StreamDelta.offsets] at h ⊢
    rcases hcalls : choice.delta.calls with _ | ⟨c, cs⟩ <;> rw [hcalls] at h
    · exact ⟨[], rfl, rfl⟩
    · refine ⟨(cs.zipIdx 1).map fun c => (c.1.index.getD c.2, c.1), ?_, ?_⟩
      · have hzero : c.index.getD 0 = 0 := by
          rw [zipIdx_cons, map_cons, Numbered] at h
          split_ifs at h
          · exact h.1
          · exact absurd h.1 (Nat.not_lt_zero _)
        rw [zipIdx_cons, map_cons, hzero]
        rfl
      · rw [map_map]
        exact zipIdx_map_fst 1 cs

theorem spokenText_spoken (d : StreamDelta) : String.join (d.spoken.map StreamItem.spokenText) =
      if d.getReasoningContent ≠ "" then "" else d.getContentString := by
  rw [StreamDelta.spoken]
  split_ifs with h h'
  · rfl
  · exact String.empty_append
  · exact (not_not.1 h').symm

theorem spokenText_of_offsets (h : c.offsets = []) :
    String.join (c.items.map StreamItem.spokenText) = (if c.reasoning ≠ "" then "" else c.text) ∧
      c.firstItems = c.items := by
  rw [offsets] at h
  rw [items, firstItems, reasoning, text]
  rcases hhead : c.choices.head? with _ | choice <;> rw [hhead] at h
  · exact ⟨rfl, rfl⟩
  · have hcalls : choice.delta.calls = [] := by simpa [StreamDelta.offsets] using h
    have hitems : choice.delta.items = choice.delta.spoken := if_neg (not_not_intro hcalls)
    refine ⟨?_, ?_⟩
    · rw [Option.elim_some, hitems, spokenText_spoken]
      rfl
    · rw [Option.elim_some, Option.elim_some, hitems, StreamDelta.firstItems, hcalls]
      rfl

theorem spokenText_of_text (h : c.text = "") :
    (∀ x ∈ c.items, x.spokenText = "") ∧ ∀ x ∈ c.firstItems, x.spokenText = "" := by
  rw [text] at h
  rw [items, firstItems]
  rcases hhead : c.choices.head? with _ | choice <;> rw [hhead] at h
  · exact ⟨forall_mem_nil _, forall_mem_nil _⟩
  · have hspoken : ∀ x ∈ choice.delta.spoken, x.spokenText = "" := by
      have htext : choice.delta.getContentString = "" := h
      rw [StreamDelta.spoken, htext]
      split_ifs with hreason <;> simp [StreamItem.spokenText]
    refine ⟨fun x hx => ?_, fun x hx => ?_⟩
    · rw [Option.elim_some, StreamDelta.items] at hx
      split_ifs at hx
      · obtain ⟨c, -, rfl⟩ := mem_map.1 hx
        rfl
      · exact hspoken x hx
    · rcases mem_append.1 hx with hx | hx
      · obtain ⟨c, -, rfl⟩ := mem_map.1 hx
        rfl
      · exact hspoken x hx

end StreamChunk

namespace OpenAIStream

variable (s : OpenAIStream)

def dropped : List ToolCallResponse := s.cut.head?.elim [] StreamChunk.dropped

def KeptWhole : Prop :=
  if s.reason = "tool_calls" then
    (∀ c ∈ s.cut, c.text = "") ∧ (∀ c ∈ s.dropped, c.name = "" ∧ c.arguments = "") ∧
      StreamItem.Kept 0 0 s.converted
  else ∀ c ∈ s.cut, c.offsets = [] ∧ (c.text = "" ∨ c.reasoning = "")

theorem exists_cut : ∃ first rest, s.cut = first :: rest := by
  rw [cut]
  rcases s.content with _ | ⟨first, rest⟩
  · exact ⟨_, _, rfl⟩
  · exact ⟨_, _, rfl⟩

variable {s} in
theorem converted_eq {first : StreamChunk} {rest : List StreamChunk} (h : s.cut = first :: rest) :
    s.converted = first.firstItems ++ rest.flatMap StreamChunk.items := by
  rw [converted, h]

theorem readTool_converted_iff :
    ((convertAll {} s.converted).1.foldl readTool []).map Prod.snd =
        toolCallsOf (s.cut.flatMap StreamChunk.offsets) ↔
      (∀ c ∈ s.dropped, c.name = "" ∧ c.arguments = "") ∧ StreamItem.Kept 0 0 s.converted := by
  obtain ⟨first, rest, hcut⟩ := s.exists_cut
  have hnum : Numbered 0 (s.cut.flatMap StreamChunk.offsets) := s.numbered
  have hdropped : s.dropped = first.dropped := by
    rw [dropped, hcut]
    rfl
  rw [hcut, flatMap_cons] at hnum
  obtain ⟨l, hoffsets, hl⟩ := StreamChunk.offsets_eq_append (numbered_append_iff.1 hnum).1
  have hcalls : StreamItem.calls s.converted =
      StreamItem.calls first.firstItems ++ rest.flatMap StreamChunk.offsets := by
    rw [converted_eq hcut, StreamItem.calls_append, StreamChunk.calls_flatMap_items]
  rw [hcut, flatMap_cons, hdropped, ← hl]
  rw [hoffsets] at hnum ⊢
  by_cases hblank : ∀ c ∈ l.map Prod.snd, c.name = "" ∧ c.arguments = ""
  · have hnone : namedCalls l = 0 := namedCalls_eq_zero_iff.2 fun c hc => (hblank c hc).1
    have hwhole : toolCallsOf (StreamItem.calls first.firstItems ++ l ++
        rest.flatMap StreamChunk.offsets) = (StreamItem.calls s.converted).foldl addCall [] := by
      rw [hcalls, toolCallsOf, foldl_append, foldl_append, foldl_addCall_blank hblank,
        foldl_append]
    have hnum' : Numbered 0 (StreamItem.calls s.converted) := by
      obtain ⟨hfirst, hrest⟩ := numbered_append_iff.1 hnum
      rw [namedCalls_append, hnone, Nat.add_zero] at hrest
      rw [hcalls]
      exact numbered_append_iff.2 ⟨(numbered_append_iff.1 hfirst).1, hrest⟩
    have hfollows : OpenBlocks.Follows {} [] 0 :=
      ⟨le_rfl, nodup_nil, fun p k hp => absurd hp (Nat.not_lt_zero _), fun p
        k _ hk => by cases hk⟩
    rw [and_iff_right hblank, hwhole]
    exact readTool_eq_iff hfollows hnum'
  · refine iff_of_false (fun heq => hblank fun c hc => ?_) fun h => hblank h.1
    have hlength := congrArg List.length heq
    rw [length_map, length_readTool, length_toolCallsOf, hcalls,
      namedCalls_append, namedCalls_append, namedCalls_append] at hlength
    have hargs := argumentsLength_readTool s.converted {} []
    have hnil : argumentsLength (List.map Prod.snd ([] : List (ℕ × ToolCallResponse))) = 0 := rfl
    rw [heq, argumentsLength_toolCallsOf hnum, hcalls, map_append,
      map_append, map_append, argumentsLength_append, argumentsLength_append,
      argumentsLength_append, hnil] at hargs
    rw [length_nil] at hlength
    exact ⟨namedCalls_eq_zero_iff.1 (by omega) c hc,
      argumentsLength_eq_zero_iff.1 (by omega) c hc⟩

theorem converted_of_offsets (hoffsets : ∀ c ∈ s.cut, c.offsets = []) :
    s.converted = s.cut.flatMap StreamChunk.items := by
  obtain ⟨first, rest, hcut⟩ := s.exists_cut
  have hfirst := (StreamChunk.spokenText_of_offsets (hoffsets first (by simp [hcut]))).2
  rw [converted_eq hcut, hcut, flatMap_cons, hfirst]

theorem spokenText_converted_iff (hoffsets : ∀ c ∈ s.cut, c.offsets = []) :
    String.join (s.converted.map StreamItem.spokenText) =
        String.join (s.cut.map StreamChunk.text) ↔
      ∀ c ∈ s.cut, c.text = "" ∨ c.reasoning = "" := by
  have hjoin : ∀ cs : List StreamChunk, (∀ c ∈ cs, c.offsets = []) →
      String.join ((cs.flatMap StreamChunk.items).map StreamItem.spokenText) =
        String.join (cs.map fun c => if c.reasoning ≠ "" then "" else c.text) := by
    intro cs hcs
    induction cs with
    | nil => rfl
    | cons _ _ ih =>
      obtain ⟨hc, hcs⟩ := forall_mem_cons.1 hcs
      rw [flatMap_cons, map_append, String.join_append,
        (StreamChunk.spokenText_of_offsets hc).1, ih hcs, map_cons, String.join_cons]
  rw [s.converted_of_offsets hoffsets, hjoin _ hoffsets, join_map_eq_iff]
  · refine forall₂_congr fun c _ => ?_
    split_ifs with h
    · rw [eq_comm, or_iff_left h]
    · exact iff_of_true rfl (.inr (not_not.1 h))
  · intro c _
    split_ifs
    · exact .inr rfl
    · exact .inl rfl

theorem spokenText_converted_of_text (htext : ∀ c ∈ s.cut, c.text = "") :
    String.join (s.converted.map StreamItem.spokenText) = "" := by
  obtain ⟨first, rest, hcut⟩ := s.exists_cut
  rw [hcut] at htext
  obtain ⟨hfirst, hrest⟩ := forall_mem_cons.1 htext
  refine join_eq_empty_iff.2 fun t ht => ?_
  obtain ⟨x, hx, rfl⟩ := mem_map.1 ht
  rw [converted_eq hcut] at hx
  rcases mem_append.1 hx with hx | hx
  · exact (StreamChunk.spokenText_of_text hfirst).2 x hx
  · obtain ⟨c, hc, hx⟩ := mem_flatMap.1 hx
    exact (StreamChunk.spokenText_of_text (hrest c hc)).1 x hx

/-- Stream and response give a client the same text, tool calls and reason. -/
structure Agrees (unmarshal : String → Option JsonObject) (es : List ClaudeEvent) : Prop where
  text : eventText es = String.join (s.cut.map StreamChunk.text)
  wholeText : (responseOpenAI2Claude unmarshal s.response).text =
    String.join (s.cut.map StreamChunk.text)
  tools : eventTools es = toolCallsOf (s.cut.flatMap StreamChunk.offsets)
  wholeTools : (responseOpenAI2Claude unmarshal s.response).tools =
    (toolCallsOf (s.cut.flatMap StreamChunk.offsets)).map fun t =>
      (t.id, t.name, toolInput unmarshal t.arguments)
  stopReason : eventStopReason es = some (responseOpenAI2Claude unmarshal s.response).stopReason

theorem responseOpenAI2Claude_response (unmarshal : String → Option JsonObject) :
    ((responseOpenAI2Claude unmarshal s.response).text =
        if s.reason = "tool_calls" then "" else String.join (s.cut.map StreamChunk.text)) ∧
      ((responseOpenAI2Claude unmarshal s.response).tools =
        if s.reason = "tool_calls" then
          (toolCallsOf (s.cut.flatMap StreamChunk.offsets)).map fun t =>
            (t.id, t.name, toolInput unmarshal t.arguments)
        else []) ∧
      (responseOpenAI2Claude unmarshal s.response).stopReason =
        openAIFinishReasonToClaudeStopReason s.reason := by
  refine ⟨?_, ?_, rfl⟩
  · by_cases h : s.reason = "tool_calls"
    · rw [if_pos h]
      refine join_eq_empty_iff.2 fun t ht => ?_
      simp [responseOpenAI2Claude, response, h, ClaudeContent.text?] at ht
    · simp [ClaudeMessage.text, responseOpenAI2Claude, response, h, ClaudeContent.text?]
  · by_cases h : s.reason = "tool_calls"
    · simp only [ClaudeMessage.tools, responseOpenAI2Claude, response, h, if_true,
        flatMap_singleton, filterMap_map]
      exact congrFun filterMap_eq_map _
    · simp [ClaudeMessage.tools, responseOpenAI2Claude, response, h, ClaudeContent.tool?]

def lookup : OpenAIStream where
  content :=
    [{ choices := [{ delta := { content := some "Let me look.", role := "assistant" } }] },
      { choices :=
          [{ delta := { toolCalls := some [⟨some 0, "call_1", "search", "\x7b\x7d"⟩] } }] }]
  last := { choices := [{ finishReason := some "tool_calls" }] }
  trailing := none
  reason := "tool_calls"
  content_finish := forall_mem_cons.2 ⟨rfl, forall_mem_singleton.2 rfl⟩
  last_finish := rfl
  trailing_choices := fun _ hc => absurd hc (Option.not_mem_none _)
  numbered := ⟨rfl, trivial⟩

end OpenAIStream

end AggreApi
