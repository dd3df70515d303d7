import AggreApi.ClaudeRelay

/-!
# The usage of streamed Claude messages

The handler keeps the last positive value of each number (`foldl_delta`). It never reads the web
searches, and drops what was announced of the cache where the stream ends early or without a
completion.
-/

namespace AggreApi

open List ClaudeResponse ReceivedUsage

/-- The last positive one of the numbers reported after `x`, and `x` where there is none. -/
def latest (x : ℤ) (xs : List ℤ) : ℤ := (xs.filter (0 < ·)).getLast?.getD x

theorem latest_cons (x y : ℤ) (xs : List ℤ) :
    latest x (y :: xs) = latest (takePositive y x) xs := by
  by_cases hy : 0 < y
  · rw [latest, latest, takePositive, if_pos hy, filter_cons_of_pos (by simpa using hy),
      getLast?_cons, Option.getD_some]
  · rw [latest, latest, takePositive, if_neg hy, filter_cons_of_neg (by simpa using hy)]

def ReceivedUsage.webSearches (u : ReceivedUsage) : ℤ := u.webSearchRequests.getD 0

theorem foldl_delta : ∀ (us : List ReceivedUsage) (v : TokenUsage), us.foldl TokenUsage.delta v =
    { v with
      usageSemantic := if us = [] then v.usageSemantic else "anthropic"
      promptTokens := latest v.promptTokens (us.map (·.inputTokens))
      completionTokens := latest v.completionTokens (us.map (·.outputTokens))
      cachedTokens := latest v.cachedTokens (us.map (·.cacheReadInputTokens))
      cachedCreationTokens :=
        latest v.cachedCreationTokens (us.map (·.cacheCreationInputTokens))
      claudeCacheCreation5mTokens :=
        latest v.claudeCacheCreation5mTokens (us.map (·.cacheCreation5m))
      claudeCacheCreation1hTokens :=
        latest v.claudeCacheCreation1hTokens (us.map (·.cacheCreation1h))
      totalTokens :=
        if us = [] then v.totalTokens
        else latest v.promptTokens (us.map (·.inputTokens)) +
          latest v.completionTokens (us.map (·.outputTokens)) }
  | [], _ => rfl
  | u :: us, v => by
    rw [foldl_cons, foldl_delta us (v.delta u)]
    simp only [map_cons, latest_cons, TokenUsage.delta, reduceCtorEq, if_false]
    rcases us with _ | ⟨u', us⟩
    · rfl
    · simp

namespace ClaudeResponse

def deltaUsage? (r : ClaudeResponse) : Option ReceivedUsage :=
  if r.type = .messageDelta then r.usage else none

def spoken (r : ClaudeResponse) : String :=
  if r.type = .contentBlockDelta then
    (r.delta.map fun d => d.text.getD "" ++ d.thinking.getD "").getD ""
  else ""

end ClaudeResponse

namespace ClaudeResponseInfo

theorem handleStreamResponseData_later (client : ClaudeClient) (info : ClaudeResponseInfo)
    {r : ClaudeResponse} (hr : r.type ≠ .messageStart ∧ r.error = false) :
    info.handleStreamResponseData client r = some
      { info with
        responseText := info.responseText ++ r.spoken
        usage := r.deltaUsage?.toList.foldl TokenUsage.delta info.usage
        done := info.done || r.type = .messageDelta } := by
  obtain ⟨hstart, herror⟩ := hr
  rw [handleStreamResponseData, herror, if_neg Bool.false_ne_true]
  simp only [formatClaudeResponseInfo, spoken, deltaUsage?]
  rcases htype : r.type
  · exact absurd htype hstart
  · simp
  · rcases r.delta with _ | d <;> simp [String.append_assoc]
  · rcases r.usage with _ | u <;> simp
  · simp
  · simp

theorem foldlM_later (client : ClaudeClient) : ∀ (rs : List ClaudeResponse)
    (info : ClaudeResponseInfo), (∀ r ∈ rs, r.type ≠ .messageStart ∧ r.error = false) →
    rs.foldlM (handleStreamResponseData client) info = some
      { info with
        responseText := info.responseText ++ String.join (rs.map spoken)
        usage := (rs.filterMap deltaUsage?).foldl TokenUsage.delta info.usage
        done := info.done || rs.any (·.type = .messageDelta) }
  | [], info, _ => by simp
  | r :: rs, info, h => by
    rw [foldlM_cons, handleStreamResponseData_later client info (h r mem_cons_self),
      Option.bind_eq_bind, Option.bind_some,
      foldlM_later client rs _ fun r' hr' => h r' (mem_cons_of_mem _ hr')]
    rcases hu : r.deltaUsage? with _ | u <;>
      simp [hu, String.append_assoc, Bool.or_assoc]

end ClaudeResponseInfo

/-- A stream that starts with a `message_start` with usage, as far as it is read. -/
structure AnnouncedStream where
  message : ClaudeMedia
  usage : ReceivedUsage
  rest : List ClaudeResponse
  announced : message.usage = some usage
  later : ∀ r ∈ rest, r.type ≠ .messageStart ∧ r.error = false

namespace AnnouncedStream

variable (s : AnnouncedStream) (client : ClaudeClient) (estimate : String → String → ℤ)
  (upstreamModelName : String)

def events : List ClaudeResponse :=
  { type := .messageStart, message := some s.message } :: s.rest

def deltas : List ReceivedUsage := s.rest.filterMap deltaUsage?

def reported (field : ReceivedUsage → ℤ) : ℤ := latest (field s.usage) (s.deltas.map field)

def Complete : Prop :=
  (∃ r ∈ s.rest, r.type = .messageDelta) ∧ s.reported (·.outputTokens) ≠ 0

instance : Decidable s.Complete := inferInstanceAs (Decidable (_ ∧ _))

def estimated : ℤ :=
  estimate (if client = .claude then s.message.model else upstreamModelName)
    (String.join (s.rest.map spoken))

def reportedUsage : TokenUsage :=
  { promptTokens := s.reported (·.inputTokens)
    completionTokens := s.reported (·.outputTokens)
    usageSemantic := "anthropic"
    cachedTokens := s.reported (·.cacheReadInputTokens)
    cachedCreationTokens := s.reported (·.cacheCreationInputTokens)
    claudeCacheCreation5mTokens := s.reported (·.cacheCreation5m)
    claudeCacheCreation1hTokens := s.reported (·.cacheCreation1h)
    totalTokens :=
      if s.deltas = [] then 0 else s.reported (·.inputTokens) + s.reported (·.outputTokens) }

def estimatedUsage : TokenUsage :=
  { promptTokens := s.reported (·.inputTokens)
    completionTokens := s.estimated client estimate upstreamModelName
    usageSemantic := "anthropic"
    totalTokens :=
      s.reported (·.inputTokens) + s.estimated client estimate upstreamModelName }

theorem handleStreamResponseData_start (info : ClaudeResponseInfo) :
    info.handleStreamResponseData client { type := .messageStart, message := some s.message } =
      some { info with
        responseId := s.message.id
        model := s.message.model
        usage := info.usage.start s.usage
        upstreamModelName :=
          if client = .claude then s.message.model else info.upstreamModelName } := by
  have hformat : info.formatClaudeResponseInfo
      { type := .messageStart, message := some s.message } =
        { info with
          responseId := s.message.id
          model := s.message.model
          usage := info.usage.start s.usage } := by
    simp [ClaudeResponseInfo.formatClaudeResponseInfo, s.announced]
  rw [ClaudeResponseInfo.handleStreamResponseData, if_neg Bool.false_ne_true, hformat]
  cases client <;> rfl

theorem claudeStreamHandler_events :
    claudeStreamHandler client estimate upstreamModelName s.events = some
      { usage :=
          if s.Complete then s.reportedUsage
          else s.estimatedUsage client estimate upstreamModelName } := by
  rw [claudeStreamHandler, events, foldlM_cons, handleStreamResponseData_start,
    Option.bind_eq_bind, Option.bind_some, ClaudeResponseInfo.foldlM_later client _ _ s.later,
    Option.map_some, foldl_delta]
  refine congrArg (fun u => some (ClaudeServed.mk u 0)) ?_
  rw [ClaudeResponseInfo.handleStreamFinalResponse]
  have hdone : (s.rest.any fun r => r.type = .messageDelta) = true ↔
      ∃ r ∈ s.rest, r.type = .messageDelta := by
    simp [any_eq_true]
  by_cases hcomplete : s.Complete
  · rw [if_pos hcomplete, if_neg]
    · rfl
    · rintro (hzero | hnot)
      · exact hcomplete.2 hzero
      · exact hnot (hdone.2 hcomplete.1)
  · rw [if_neg hcomplete, if_pos]
    · rfl
    · by_contra hnot
      rw [not_or, not_not] at hnot
      exact hcomplete ⟨hdone.1 hnot.2, hnot.1⟩

end AnnouncedStream

/-- Two ways to serve a message are charged alike. -/
structure ChargedAlike (a b : Option ClaudeServed) : Prop where
  served : a = b
  charged : ∀ (setting : QuotaSetting) (info : QuotaInfo),
    a.map (fun s => info.calculateTextQuotaSummary setting s.toServed) =
      b.map fun s => info.calculateTextQuotaSummary setting s.toServed

def ReceivedUsage.fields : List (ReceivedUsage → ℤ) :=
  [fun u => u.inputTokens, fun u => u.outputTokens, fun u => u.cacheReadInputTokens,
    fun u => u.cacheCreationInputTokens, cacheCreation5m, cacheCreation1h, webSearches]

/-- A whole message with its usage, and a stream of it that is read to the end. -/
structure StreamedResponse extends AnnouncedStream where
  whole : ClaudeResponse
  final : ReceivedUsage
  usage_whole : whole.usage = some final
  error_whole : whole.error = false
  ended : ∃ r ∈ rest, r.type = .messageDelta
  merges : ∀ field ∈ fields, toAnnouncedStream.reported field = field final

namespace StreamedResponse

variable (s : StreamedResponse) (client : ClaudeClient) (estimate : String → String → ℤ)
  (upstreamModelName : String)

def wholeUsage : TokenUsage :=
  { promptTokens := s.final.inputTokens
    completionTokens := s.final.outputTokens
    usageSemantic := "anthropic"
    cachedTokens := s.final.cacheReadInputTokens
    cachedCreationTokens := s.final.cacheCreationInputTokens
    claudeCacheCreation5mTokens := s.final.cacheCreation5m
    claudeCacheCreation1hTokens := s.final.cacheCreation1h
    totalTokens := s.final.inputTokens + s.final.outputTokens }

theorem claudeHandler_whole : claudeHandler s.whole =
    some { usage := s.wholeUsage, webSearchRequests := s.final.webSearches.toNat } := by
  rw [claudeHandler, s.error_whole, if_neg Bool.false_ne_true, s.usage_whole]
  rfl

theorem complete_iff : s.Complete ↔ s.final.outputTokens ≠ 0 := by
  rw [AnnouncedStream.Complete, and_iff_right s.ended,
    s.merges (fun u => u.outputTokens) (by simp [fields])]

theorem reportedUsage_eq_iff : s.reportedUsage = s.wholeUsage ↔
    s.deltas ≠ [] ∨ s.final.inputTokens + s.final.outputTokens = 0 := by
  have hmerges := s.merges
  simp only [fields, forall_mem_cons] at hmerges
  obtain ⟨hin, hout, hread, hcreated, h5m, h1h, -⟩ := hmerges
  rw [AnnouncedStream.reportedUsage, wholeUsage, hin, hout, hread, hcreated, h5m, h1h,
    TokenUsage.mk.injEq]
  by_cases hdeltas : s.deltas = []
  · simp [hdeltas, eq_comm]
  · simp [hdeltas]

theorem estimatedUsage_eq_iff (hout : s.final.outputTokens = 0) :
    s.estimatedUsage client estimate upstreamModelName = s.wholeUsage ↔
      s.estimated client estimate upstreamModelName = 0 ∧ s.final.cacheReadInputTokens = 0 ∧
        s.final.cacheCreationInputTokens = 0 ∧ s.final.cacheCreation5m = 0 ∧
        s.final.cacheCreation1h = 0 := by
  have hin := s.merges (fun u => u.inputTokens) (by simp [fields])
  rw [AnnouncedStream.estimatedUsage, wholeUsage, hin, hout, TokenUsage.mk.injEq, Usage.mk.injEq]
  constructor
  · rintro ⟨⟨-, hest, -, -, hread, hcreated, -, -, h5m, h1h, -⟩, -⟩
    exact ⟨hest, hread.symm, hcreated.symm, h5m.symm, h1h.symm⟩
  · rintro ⟨hest, hread, hcreated, h5m, h1h⟩
    simp [hest, hread, hcreated, h5m, h1h]

/-- The stream is charged as the whole message exactly when there are no web searches and the usage
is reported in time, or nothing is that the estimate drops. -/
theorem charged_alike_iff :
    ChargedAlike (claudeStreamHandler client estimate upstreamModelName s.events)
        (claudeHandler s.whole) ↔
      s.final.webSearches ≤ 0 ∧
      if s.final.outputTokens = 0 then
        s.estimated client estimate upstreamModelName = 0 ∧ s.final.cacheReadInputTokens = 0 ∧
          s.final.cacheCreationInputTokens = 0 ∧ s.final.cacheCreation5m = 0 ∧
          s.final.cacheCreation1h = 0
      else s.deltas ≠ [] ∨ s.final.inputTokens + s.final.outputTokens = 0 := by
  have hserved : claudeStreamHandler client estimate upstreamModelName s.events =
      claudeHandler s.whole ↔ s.final.webSearches ≤ 0 ∧
        (if s.Complete then s.reportedUsage
          else s.estimatedUsage client estimate upstreamModelName) = s.wholeUsage := by
    rw [s.claudeStreamHandler_events, claudeHandler_whole, Option.some_inj, ClaudeServed.mk.injEq,
      and_comm]
    exact and_congr_left' (by omega)
  have halike : ChargedAlike (claudeStreamHandler client estimate upstreamModelName s.events)
      (claudeHandler s.whole) ↔ claudeStreamHandler client estimate upstreamModelName s.events =
        claudeHandler s.whole :=
    ⟨fun h => h.served, fun h => ⟨h, fun setting info => by rw [h]⟩⟩
  rw [halike, hserved]
  refine and_congr_right' ?_
  by_cases hout : s.final.outputTokens = 0
  · rw [if_neg (mt s.complete_iff.1 (not_not_intro hout)), if_pos hout]
    exact s.estimatedUsage_eq_iff client estimate upstreamModelName hout
  · rw [if_pos (s.complete_iff.2 hout), if_neg hout]
    exact s.reportedUsage_eq_iff

def searched : StreamedResponse :=
  { message :=
      { model := "claude-sonnet-4-5", usage := some { inputTokens := 100, outputTokens := 1 } }
    usage := { inputTokens := 100, outputTokens := 1 }
    rest :=
      [{ type := .contentBlockDelta, delta := some { text := some "It rains." } },
        { type := .messageDelta,
          usage := some { outputTokens := 20, webSearchRequests := some 2 } },
        { type := .messageStop }]
    announced := rfl
    later := forall_mem_cons.2 ⟨⟨nofun, rfl⟩,
      forall_mem_cons.2 ⟨⟨nofun, rfl⟩, forall_mem_singleton.2 ⟨nofun, rfl⟩⟩⟩
    whole :=
      { content := [{ type := .text, text := some "It rains." }]
        usage := some { inputTokens := 100, outputTokens := 20, webSearchRequests := some 2 } }
    final := { inputTokens := 100, outputTokens := 20, webSearchRequests := some 2 }
    usage_whole := rfl
    error_whole := rfl
    ended := ⟨_, mem_cons_of_mem _ mem_cons_self, rfl⟩
    merges := forall_mem_cons.2 ⟨rfl, forall_mem_cons.2 ⟨rfl,
      forall_mem_cons.2 ⟨rfl, forall_mem_cons.2 ⟨rfl, forall_mem_cons.2 ⟨rfl,
        forall_mem_cons.2 ⟨rfl, forall_mem_singleton.2 rfl⟩⟩⟩⟩⟩⟩ }

def plainInfo : QuotaInfo :=
  { originModelName := "claude-sonnet-4-5"
    format := .gen .claude
    channelType := 14
    price := { modelRatio := 1, completionRatio := 1 }
    groupRatio := 1 }

/-- The web searches of `searched` are charged without streaming only. -/
theorem searches_not_charged : (claudeHandler searched.whole).map (fun s =>
        (plainInfo.calculateTextQuotaSummary ⟨500000, fun _ => none⟩ s.toServed).quota) =
      some 10120 ∧
    (claudeStreamHandler .claude (fun _ _ => 0) "claude-sonnet-4-5" searched.events).map (fun s =>
        (plainInfo.calculateTextQuotaSummary ⟨500000, fun _ => none⟩ s.toServed).quota) =
      some 120 := by
  decide +kernel

end StreamedResponse

namespace AnnouncedStream

variable (s : AnnouncedStream) (client : ClaudeClient) (estimate : String → String → ℤ)
  (upstreamModelName : String)

def raised : ℤ := (s.deltas.map (·.inputTokens)).foldl max s.usage.inputTokens

/-- A usage bills what was announced. -/
structure Bills (usage : TokenUsage) : Prop where
  prompt : usage.promptTokens = s.raised
  cached : s.usage.cacheReadInputTokens ≤ usage.cachedTokens
  created : s.usage.cacheCreationInputTokens ≤ usage.cachedCreationTokens
  created5m : s.usage.cacheCreation5m ≤ usage.claudeCacheCreation5mTokens
  created1h : s.usage.cacheCreation1h ≤ usage.claudeCacheCreation1hTokens

def cacheFields : List (ReceivedUsage → ℤ) :=
  [fun u => u.cacheReadInputTokens, fun u => u.cacheCreationInputTokens,
    cacheCreation5m, cacheCreation1h]

/-- What was announced is billed exactly when the last positive prompt count is the largest, and
each last positive cache count is at least the announced one, which is zero if the stream is cut. -/
theorem announced_billed_iff :
    (∃ served, claudeStreamHandler client estimate upstreamModelName s.events = some served ∧
      s.Bills served.usage) ↔
    s.reported (·.inputTokens) = s.raised ∧
      ∀ field ∈ cacheFields, field s.usage ≤ if s.Complete then s.reported field else 0 := by
  rw [s.claudeStreamHandler_events client estimate upstreamModelName]
  simp only [Option.some_inj, exists_eq_left', cacheFields, forall_mem_cons,
    not_mem_nil, false_implies, implies_true, and_true]
  by_cases hcomplete : s.Complete <;> simp only [hcomplete, if_true, if_false] <;>
    exact ⟨fun h => ⟨h.prompt, h.cached, h.created, h.created5m, h.created1h⟩,
      fun ⟨hprompt, hcached, hcreated, h5m, h1h⟩ => ⟨hprompt, hcached, hcreated, h5m, h1h⟩⟩

def cutStream : AnnouncedStream :=
  { message :=
      { model := "claude-sonnet-4-5"
        usage := some { inputTokens := 100, outputTokens := 1, cacheReadInputTokens := 5000 } }
    usage := { inputTokens := 100, outputTokens := 1, cacheReadInputTokens := 5000 }
    rest := [{ type := .contentBlockDelta, delta := some { text := some "It" } }]
    announced := rfl
    later := forall_mem_singleton.2 ⟨nofun, rfl⟩ }

/-- The cached tokens of `cutStream` are not billed. -/
theorem cached_dropped :
    ((claudeStreamHandler .claude (fun _ _ => 1) "claude-sonnet-4-5" cutStream.events).map
        fun s => (s.usage.promptTokens, s.usage.cachedTokens)) = some (100, 0) ∧
      ¬ ∃ served, claudeStreamHandler .claude (fun _ _ => 1) "claude-sonnet-4-5" cutStream.events =
        some served ∧ cutStream.Bills served.usage := by
  have hserved : claudeStreamHandler .claude (fun _ _ => 1) "claude-sonnet-4-5" cutStream.events =
      some { usage := cutStream.estimatedUsage .claude (fun _ _ => 1) "claude-sonnet-4-5" } := by
    rw [claudeStreamHandler_events, if_neg (by decide)]
  refine ⟨by rw [hserved]; rfl, ?_⟩
  rintro ⟨served, hserved', hbills⟩
  rw [hserved] at hserved'
  cases hserved'
  exact absurd hbills.cached (by decide)

end AnnouncedStream

end AggreApi
