import AggreApi.ClaudeStream
import AggreApi.Proofs.ToolFragments

/-!
# The items of a converted stream

What a chunk converts to is the sequence of its items, and `OpenBlocks.convert` gives the events
item by item. The handler converts the first chunk as the first and the others as later ones, except
that the last of two is converted as a first one again, and that of one only as a later one.
-/

namespace AggreApi

open List StreamDelta StreamInfo

variable {info : StreamInfo} {c : StreamChunk} {reason : String}

/-- The content of a chunk that is converted. -/
inductive StreamItem where
  | call (offset : ℕ) (c : ToolCallResponse)
  | thinking (s : String)
  | text (s : String)

def StreamItem.calls : List StreamItem → List (ℕ × ToolCallResponse)
  | [] => []
  | .call o c :: xs => (o, c) :: calls xs
  | _ :: xs => calls xs

variable (b : OpenBlocks) (type : LastMessageType) (d : StreamDelta)

namespace StreamDelta

def spoken : List StreamItem :=
  if d.getReasoningContent ≠ "" then [.thinking d.getReasoningContent]
  else if d.getContentString ≠ "" then [.text d.getContentString]
  else []

def items : List StreamItem :=
  if d.calls ≠ [] then d.offsets.map fun c => .call c.1 c.2 else d.spoken

def firstItems : List StreamItem := (d.calls.head?.toList.map fun c => .call 0 c) ++ d.spoken

end StreamDelta

structure OpenBlocks where
  last : LastMessageType := .none
  index : ℕ := 0
  base : ℕ := 0
  top : ℕ := 0

namespace OpenBlocks

def stops : List ClaudeEvent :=
  match b.last with
  | .text | .thinking => [.blockStop b.index]
  | .tools => (List.range (b.top + 1)).map fun o => .blockStop (b.base + o)
  | .none => []

def advance : OpenBlocks :=
  match b.last with
  | .none => b
  | .tools => { last := .none, index := b.base + b.top + 1 }
  | _ => { b with index := b.index + 1, last := .none }

def turn : OpenBlocks :=
  if b.last = type then b
  else if type = .tools then
    { last := .tools, index := b.advance.index, base := b.advance.index }
  else { b.advance with last := type }

@[simp] theorem turn_last : (b.turn type).last = type := by
  rw [turn]
  split_ifs with h htools
  · exact h
  · exact htools.symm
  · rfl

theorem turn_turn :
    (b.turn type).turn type = b.turn type := if_pos (b.turn_last type)

def turnStops : List ClaudeEvent := if b.last = type then [] else b.stops

/-- Text or thinking, in a block of its type. -/
def say (block : ClaudeBlock) (delta : ClaudeDelta) : List ClaudeEvent × OpenBlocks :=
  (b.turnStops type ++ (if b.last = type then [] else [.blockStart (b.turn type).index block]) ++
      [.blockDelta (b.turn type).index delta], b.turn type)

def convert : StreamItem → List ClaudeEvent × OpenBlocks
  | .call o c =>
    let t := b.turn .tools
    (b.turnStops .tools ++ toolEvents (t.base + o) c,
      { t with top := max t.top o, index := t.base + max t.top o })
  | .thinking s => b.say .thinking .thinking (.thinking s)
  | .text s => b.say .text .text (.text s)

def convertAll (b : OpenBlocks) : List StreamItem → List ClaudeEvent × OpenBlocks
  | [] => ([], b)
  | x :: xs => ((b.convert x).1 ++ ((b.convert x).2.convertAll xs).1,
      ((b.convert x).2.convertAll xs).2)

theorem convertAll_append (b : OpenBlocks) : ∀ xs ys : List StreamItem, b.convertAll (xs ++ ys) =
      ((b.convertAll xs).1 ++ ((b.convertAll xs).2.convertAll ys).1,
        ((b.convertAll xs).2.convertAll ys).2)
  | [], ys => by simp [convertAll]
  | x :: xs, ys => by
    rw [cons_append, convertAll, convertAll_append, convertAll]
    simp

end OpenBlocks

namespace StreamInfo

def blocks (info : StreamInfo) : OpenBlocks :=
  { last := info.lastMessagesType
    index := info.index
    base := info.toolCallBaseIndex
    top := info.toolCallMaxIndexOffset }

def withBlocks (info : StreamInfo) (b : OpenBlocks) : StreamInfo :=
  { info with
    lastMessagesType := b.last
    index := b.index
    toolCallBaseIndex := b.base
    toolCallMaxIndexOffset := b.top }

theorem stopOpenBlocks_eq (info : StreamInfo) : info.stopOpenBlocks = info.blocks.stops := rfl

theorem withBlocks_blocks (info : StreamInfo) : info.withBlocks info.blocks = info := rfl

theorem advance_eq (info : StreamInfo) : info.advance = info.withBlocks info.blocks.advance := by
  rw [advance, OpenBlocks.advance]
  rcases h : info.lastMessagesType
  · have hb : info.blocks.last = .none := h
    rw [hb]
    rfl
  all_goals
    simp [blocks, withBlocks, h]

theorem speak_eq (info : StreamInfo) {type : LastMessageType} (htype : type ≠ .tools)
    (block : ClaudeBlock) (delta : ClaudeDelta) :
    info.speak type block delta =
      ((info.blocks.say type block delta).1,
        info.withBlocks (info.blocks.say type block delta).2) := by
  by_cases h : info.lastMessagesType = type
  · have hb : info.blocks.last = type := h
    simp only [speak, h, ne_eq, not_true_eq_false, if_false, OpenBlocks.say,
      OpenBlocks.turnStops, OpenBlocks.turn, hb, if_true, withBlocks_blocks]
    rfl
  · have hb : info.blocks.last ≠ type := h
    simp only [speak, h, ne_eq, not_false_eq_true, if_true, OpenBlocks.say,
      OpenBlocks.turnStops, OpenBlocks.turn, hb, htype, if_false, advance_eq, stopOpenBlocks_eq]
    simp [withBlocks]

end StreamInfo

namespace StreamChunk

open OpenBlocks (convertAll)

theorem convertAll_calls : ∀ (calls : List ToolCallResponse) (i : ℕ) (b : OpenBlocks),
    b.last = .tools →
    b.convertAll ((calls.zipIdx i).map fun c => .call (c.1.index.getD c.2) c.1) =
      ((toolLoop b.base i b.top calls).1,
        { b with
          top := (toolLoop b.base i b.top calls).2
          index := if calls = [] then b.index else b.base + (toolLoop b.base i b.top calls).2 })
  | [], i, b, _ => rfl
  | c :: calls, i, b, hlast => by
    have hturn : b.turn .tools = b := if_pos hlast
    have hconv : b.convert (.call (c.index.getD i) c) =
        (toolEvents (b.base + c.index.getD i) c,
          { b with
            top := max b.top (c.index.getD i)
            index := b.base + max b.top (c.index.getD i) }) := by
      simp [OpenBlocks.convert, hturn, OpenBlocks.turnStops, hlast]
    have ih := convertAll_calls calls (i + 1)
      { b with
        top := max b.top (c.index.getD i)
        index := b.base + max b.top (c.index.getD i) } hlast
    rw [zipIdx_cons, map_cons, OpenBlocks.convertAll, hconv]
    dsimp only
    rw [ih]
    by_cases hcalls : calls = []
    · subst hcalls
      rfl
    · rw [if_neg hcalls]
      rfl

theorem convertAll_call (o : ℕ) (c : ToolCallResponse) (xs : List StreamItem) :
    b.convertAll (.call o c :: xs) =
      (b.turnStops .tools ++ ((b.turn .tools).convertAll (.call o c :: xs)).1,
        ((b.turn .tools).convertAll (.call o c :: xs)).2) := by
  simp [OpenBlocks.convertAll, OpenBlocks.convert, OpenBlocks.turn_turn, OpenBlocks.turnStops]

theorem convertDelta_eq (info : StreamInfo) : convertDelta d info =
      ((info.blocks.convertAll d.items).1, info.withBlocks (info.blocks.convertAll d.items).2) := by
  rw [convertDelta, items]
  by_cases hcalls : d.calls ≠ []
  · rw [if_pos hcalls, if_pos hcalls]
    obtain ⟨c, cs, hc⟩ := exists_cons_of_ne_nil hcalls
    have hall := convertAll_calls d.calls 0 (info.blocks.turn .tools) (info.blocks.turn_last _)
    rw [if_neg hcalls] at hall
    have hitems : (d.offsets.map fun c => StreamItem.call c.1 c.2) =
        d.calls.zipIdx.map fun c => .call (c.1.index.getD c.2) c.1 := by
      rw [offsets, map_map]
      rfl
    have hcall : info.blocks.convertAll (d.offsets.map fun c => StreamItem.call c.1 c.2) =
        (info.blocks.turnStops .tools ++ ((info.blocks.turn .tools).convertAll
            (d.offsets.map fun c => StreamItem.call c.1 c.2)).1,
          ((info.blocks.turn .tools).convertAll
            (d.offsets.map fun c => StreamItem.call c.1 c.2)).2) := by
      rw [hitems, hc, zipIdx_cons, map_cons]
      exact convertAll_call ..
    rw [hcall, hitems, hall]
    by_cases hlast : info.lastMessagesType = .tools
    · have hb : info.blocks.last = .tools := hlast
      have hturn : info.blocks.turn .tools = info.blocks := if_pos hb
      simp only [hlast, ne_eq, not_true_eq_false, if_false,
        OpenBlocks.turnStops, hb, if_true, hturn]
      simp [withBlocks, blocks]
    · have hb : info.blocks.last ≠ .tools := hlast
      have hturn : info.blocks.turn .tools =
          { last := .tools, index := info.blocks.advance.index,
            base := info.blocks.advance.index } := by
        rw [OpenBlocks.turn, if_neg hb, if_pos rfl]
      simp only [hlast, ne_eq, not_false_eq_true, if_true,
        OpenBlocks.turnStops, hb, if_false, hturn,
        advance_eq, stopOpenBlocks_eq]
      simp [withBlocks]
  · rw [if_neg hcalls, if_neg hcalls, spoken]
    split_ifs with hreason htext
    · rw [speak_eq _ (by decide)]
      simp [OpenBlocks.convertAll, OpenBlocks.convert]
    · rw [speak_eq _ (by decide)]
      simp [OpenBlocks.convertAll, OpenBlocks.convert]
    · rfl

theorem convertFirst_eq {d : StreamDelta} (hname : ∀ c ∈ d.calls.head?, c.name ≠ "")
    (hb : info.blocks = {}) :
    (convertFirstTool d info).1 ++ (convertFirstText d (convertFirstTool d info).2).1 =
        (info.blocks.convertAll d.firstItems).1 ∧
      (convertFirstText d (convertFirstTool d info).2).2 =
        info.withBlocks (info.blocks.convertAll d.firstItems).2 := by
  have hspeak : ∀ info : StreamInfo, info.lastMessagesType = .none ∨
    info.lastMessagesType = .tools →
      convertFirstText d info = ((info.blocks.convertAll d.spoken).1,
        info.withBlocks (info.blocks.convertAll d.spoken).2) := by
    intro info hlast
    rw [convertFirstText, spoken]
    split_ifs with hreason htext
    · have hne : info.lastMessagesType ≠ .thinking := by
        rcases hlast with h | h <;> simp [h]
      rw [speakFirst, if_pos hne, speak_eq _ (by decide)]
      simp [OpenBlocks.convertAll, OpenBlocks.convert]
    · have hne : info.lastMessagesType ≠ .text := by
        rcases hlast with h | h <;> simp [h]
      rw [speakFirst, if_pos hne, speak_eq _ (by decide)]
      simp [OpenBlocks.convertAll, OpenBlocks.convert]
    · rfl
  have hlast : info.lastMessagesType = .none := congrArg OpenBlocks.last hb
  rcases hc : d.calls with _ | ⟨c, cs⟩
  · have hitems : d.firstItems = d.spoken := by simp [firstItems, hc]
    simp [convertFirstTool, hc, hitems, hspeak info (.inl hlast)]
  · have hcn : c.name ≠ "" := hname c (by simp [hc])
    have hitems : d.firstItems = .call 0 c :: d.spoken := by simp [firstItems, hc]
    have hconv : info.blocks.convert (.call 0 c) =
        (toolEvents 0 c, { last := .tools, index := 0, base := 0, top := 0 }) := by
      rw [hb]
      rfl
    have htool : convertFirstTool d info =
        (toolEvents 0 c, info.withBlocks { last := .tools, index := 0, base := 0, top := 0 }) := by
      have hindex : info.index = 0 := congrArg OpenBlocks.index hb
      simp [convertFirstTool, hc, toolEvents, hcn, withBlocks, hindex]
    rw [hitems, OpenBlocks.convertAll, hconv, htool]
    dsimp only
    rw [hspeak _ (.inr rfl)]
    exact ⟨rfl, rfl⟩

def closing (usage : Option TokenUsage) (reason : String) : List ClaudeEvent :=
  (match usage with
    | some u => [.messageDelta (buildClaudeUsageFromOpenAIUsage u)
        (openAIFinishReasonToClaudeStopReason reason)]
    | none => []) ++ [.messageStop]

theorem finish_eq (info : StreamInfo) (usage : Option TokenUsage) : info.finish usage =
      info.blocks.stops ++ closing (usage.or info.usage) info.finishReason := by
  rw [finish, append_assoc]
  rfl

def items (c : StreamChunk) : List StreamItem := c.choices.head?.elim [] (·.delta.items)

def firstItems (c : StreamChunk) : List StreamItem := c.choices.head?.elim [] (·.delta.firstItems)

def offsets (c : StreamChunk) : List (ℕ × ToolCallResponse) :=
  c.choices.head?.elim [] (·.delta.offsets)

theorem convertNext_none (h : c.finish? = none) (info : StreamInfo) : c.convertNext info =
      ((info.blocks.convertAll c.items).1, info.withBlocks (info.blocks.convertAll c.items).2) := by
  rw [convertNext, items]
  rcases hc : c.choices with _ | ⟨choice, rest⟩
  · rfl
  · simp only [h, Option.getD_none, Option.isSome_none, Bool.false_eq_true, if_false,
      convertDelta_eq]
    rfl

theorem convertNext_some (h : c.finish? = some reason) (info : StreamInfo) :
    (c.convertNext info).1 =
        (info.blocks.convertAll c.items).1 ++ ((info.blocks.convertAll c.items).2.stops ++
          closing (c.usage.or info.usage) reason) ∧
      (c.convertNext info).2.done = true := by
  rw [convertNext, items]
  rcases hc : c.choices with _ | ⟨choice, rest⟩
  · simp [finish?, hc] at h
  · simp only [h, Option.getD_some, Option.isSome_some, if_true, convertDelta_eq, finish_eq]
    exact ⟨rfl, trivial⟩

theorem name_of_numbered (h : Numbered 0 c.offsets) {choice : StreamChoice}
    (hc : c.choices.head? = some choice) : ∀ x ∈ choice.delta.calls.head?, x.name ≠ "" := by
  intro x hx hname
  obtain ⟨rest, hcalls⟩ := head?_eq_some_iff.1 hx
  simp [offsets, hc, StreamDelta.offsets, hcalls, Numbered, hname] at h

theorem convertFirst_none (h : c.finish? = none) (hnum : Numbered 0 c.offsets)
    (hb : info.blocks = {}) :
    c.convertFirst info =
      (.messageStart c.id c.model info.estimatePromptTokens ::
          (info.blocks.convertAll c.firstItems).1,
        info.withBlocks (info.blocks.convertAll c.firstItems).2) := by
  rw [convertFirst, firstItems]
  rcases hc : c.choices with _ | ⟨choice, rest⟩
  · rfl
  · have hname : ∀ x ∈ choice.delta.calls.head?, x.name ≠ "" :=
      name_of_numbered hnum (by rw [hc]; rfl)
    obtain ⟨hevents, hinfo⟩ := convertFirst_eq hname hb
    simp [h, head?_cons, ← hevents, ← hinfo]

theorem convertFirst_some (h : c.finish? = some reason)
    (hnum : Numbered 0 c.offsets) (hb : info.blocks = {}) :
    (c.convertFirst info).1 =
        .messageStart c.id c.model info.estimatePromptTokens ::
          ((info.blocks.convertAll c.firstItems).1 ++
            ((info.blocks.convertAll c.firstItems).2.stops ++
              closing (c.usage.or info.usage) reason)) ∧
      (c.convertFirst info).2.done = true := by
  rw [convertFirst, firstItems]
  rcases hc : c.choices with _ | ⟨choice, rest⟩
  · simp [finish?, hc] at h
  · have hname : ∀ x ∈ choice.delta.calls.head?, x.name ≠ "" :=
      name_of_numbered hnum (by rw [hc]; rfl)
    obtain ⟨hevents, hinfo⟩ := convertFirst_eq hname hb
    simp only [h, finish_eq, hinfo, head?_cons, Option.elim_some, ← hevents,
      cons_append, append_assoc]
    exact ⟨rfl, trivial⟩

def received (c : StreamChunk) (info : StreamInfo) : StreamInfo :=
  { info with
    sendResponseCount := info.sendResponseCount + 1
    usage := c.usage.or info.usage }

theorem oaiStreamHandler_cons (usage : TokenUsage) (info : StreamInfo) (c : StreamChunk)
    {cs : List StreamChunk} (h : cs ≠ []) :
    oaiStreamHandler usage info (c :: cs) =
      (c.handleStreamFormat info).1 ++
        oaiStreamHandler usage (c.handleStreamFormat info).2 cs := by
  obtain ⟨c', cs', rfl⟩ := exists_cons_of_ne_nil h
  rfl

theorem oaiStreamHandler_done (usage : TokenUsage) : ∀ {info : StreamInfo}
    (cs : List StreamChunk), info.done = true → oaiStreamHandler usage info cs = []
  | _, [], _ => rfl
  | info, [c], h => by simp [oaiStreamHandler, streamResponseOpenAI2Claude, h]
  | info, c :: c' :: cs, h => by
    have hc : c.handleStreamFormat info = ([], c.received info) := if_pos h
    rw [oaiStreamHandler_cons _ _ _ (cons_ne_nil _ _), hc, nil_append]
    exact oaiStreamHandler_done usage (c' :: cs) h

theorem handleStreamFormat_next (c : StreamChunk) {info : StreamInfo} (hdone : info.done = false)
    (hcount : 1 ≤ info.sendResponseCount) :
    c.handleStreamFormat info = c.convertNext (c.received info) := by
  have hdone' : (c.received info).done = false := hdone
  have hne : (c.received info).sendResponseCount ≠ 1 := by
    change info.sendResponseCount + 1 ≠ 1
    omega
  change streamResponseOpenAI2Claude c (c.received info) = _
  rw [streamResponseOpenAI2Claude, hdone', if_neg Bool.false_ne_true, if_neg hne]

theorem oaiStreamHandler_rest (usage : TokenUsage) {f : StreamChunk}
    (hf : f.finish? = some reason) (u : Option StreamChunk) :
    ∀ (rest : List StreamChunk) (info : StreamInfo), info.done = false →
      1 ≤ info.sendResponseCount → (info.sendResponseCount = 1 → rest ≠ [] ∨ u.isSome = true) →
      (∀ c ∈ rest, c.finish? = none) →
      ∃ known, oaiStreamHandler usage info (rest ++ f :: u.toList) =
          (info.blocks.convertAll ((rest ++ [f]).flatMap items)).1 ++
            ((info.blocks.convertAll ((rest ++ [f]).flatMap items)).2.stops ++
              closing known reason) ∧
        (known.isSome = true ↔
          u = none ∨ info.usage.isSome = true ∨ ∃ c ∈ rest ++ [f], c.usage.isSome = true)
  | [], info, hdone, hcount, hlast, _ => by
    simp only [nil_append, flatMap_cons, flatMap_nil, append_nil,
      mem_singleton, exists_eq_left]
    rcases u with _ | c
    · have hne : info.sendResponseCount ≠ 1 := fun h => by simpa using hlast h
      refine ⟨f.usage.or (some usage), ?_, by cases f.usage <;> simp⟩
      have hconv : oaiStreamHandler usage info [f] =
          (f.convertNext { info with usage := some usage }).1 := by
        simp [oaiStreamHandler, streamResponseOpenAI2Claude, hdone, hne]
      rw [Option.toList_none, hconv, (convertNext_some hf _).1]
      rfl
    · refine ⟨f.usage.or (f.usage.or info.usage), ?_, ?_⟩
      · obtain ⟨hevents, hend⟩ := convertNext_some hf (f.received info)
        rw [oaiStreamHandler_cons _ _ _ (by simp), handleStreamFormat_next f hdone hcount, hevents,
          oaiStreamHandler_done _ _ hend, append_nil]
        rfl
      · rcases f.usage with _ | v <;> simp
  | c :: rest, info, hdone, hcount, _, hrest => by
    have hc := convertNext_none (hrest c mem_cons_self) (c.received info)
    obtain ⟨known, hevents, hknown⟩ := oaiStreamHandler_rest usage hf u rest
      ((c.received info).withBlocks (info.blocks.convertAll c.items).2) hdone (Nat.succ_pos _)
      (fun h => absurd (Nat.succ.inj h) (by omega))
      fun c hc => hrest c (mem_cons_of_mem _ hc)
    refine ⟨known, ?_, ?_⟩
    · rw [cons_append, oaiStreamHandler_cons _ _ _ (by simp),
        handleStreamFormat_next c hdone hcount, hc, cons_append, flatMap_cons,
        OpenBlocks.convertAll_append, append_assoc]
      exact congrArg _ hevents
    · have husage : ((c.received info).withBlocks (info.blocks.convertAll c.items).2).usage =
          c.usage.or info.usage := rfl
      rw [hknown, husage, cons_append, exists_mem_cons_iff, Option.isSome_or,
        Bool.or_eq_true, or_assoc, or_left_comm (b := info.usage.isSome = true)]

end StreamChunk

end AggreApi
