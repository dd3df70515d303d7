import AggreApi.Proofs.HeaderOperations
import AggreApi.Proofs.ParamOverride

/-!
# Client headers as templates

The header override is expanded after the operations have put client headers into it, so that what
the client sends is read as a template.
-/

namespace AggreApi

open List

variable {p : String} {source : HeaderMap} {h : HttpHeader}

namespace HttpHeader

variable {h h' : HttpHeader} {p : String}

theorem cloneRequestHeaders_erase (hsame : h.SameButAuthorization h') :
    h.cloneRequestHeaders.erase "Authorization" = h'.cloneRequestHeaders.erase "Authorization" := by
  rw [cloneRequestHeaders, cloneRequestHeaders, erase_insertAll, erase_insertAll,
    filter_filterMap, filter_filterMap]
  have hnone : ∀ value : String, (if value = "" then none else some ("Authorization", value)).filter
      (fun e : String × String => decide (e.1 ≠ "Authorization")) = none := by
    intro value
    split_ifs <;> simp
  refine congrArg _ (filterMap_keys hsame (hnone _) (hnone _) ?_)
  · intro name hcanonical hne
    rw [← hcanonical] at hne
    simp [get_of_ne hsame hne]

end HttpHeader

theorem buildRequestHeadersContext_lookup {m m' : HeaderMap}
    (hm : m.erase "Authorization" = m'.erase "Authorization") {key : String}
    (hkey : key ≠ "authorization") :
    (buildRequestHeadersContext m).lookup key = (buildRequestHeadersContext m').lookup key := by
  have hnorm : normalizeHeaderContextKey "Authorization" = "authorization" := by decide
  have herase : ∀ m : HeaderMap, (buildRequestHeadersContext m).erase "authorization" =
      insertAll ∅ ((m.erase "Authorization").entries.filterMap fun e =>
        (contextEntry e).filter fun c => decide (c.1 ≠ "authorization")) := by
    intro m
    rw [buildRequestHeadersContext, erase_insertAll, filter_filterMap, entries_erase,
      filterMap_filter]
    refine congrArg _ (filterMap_congr fun e _ => ?_)
    split_ifs with hname
    · rfl
    · have hauth : e.1 = "Authorization" := by simpa using hname
      rw [contextEntry, hauth, hnorm]
      split_ifs <;> simp
  rw [← AList.lookup_erase_ne hkey, herase, hm, ← herase, AList.lookup_erase_ne hkey]

theorem free_insertAll {L : List (String × String)}
    (h : ∀ e ∈ L, contains e.2 p = false) : HeaderMap.Free p (insertAll ∅ L) := by
  intro e he
  rcases mem_entries_insertAll he with he | he
  · exact absurd he not_mem_nil
  · exact h _ he

namespace HttpHeader

variable {h : HttpHeader} {p : String}

def Free (p : String) (h : HttpHeader) : Prop :=
  ∀ name ∈ h.lines.keys, contains (trimSpace (h.get name)) p = false

theorem Free.context (hfree : h.Free p) :
    HeaderMap.Free p (buildRequestHeadersContext h.cloneRequestHeaders) := by
  have hclone : HeaderMap.Free p h.cloneRequestHeaders := by
    refine free_insertAll fun e he => ?_
    obtain ⟨name, hname, heq⟩ := mem_filterMap.1 he
    rw [Option.ite_none_left_eq_some, Option.some.injEq] at heq
    rw [← heq.2]
    exact hfree name hname
  refine free_insertAll fun c hc => ?_
  obtain ⟨e, he, heq⟩ := mem_filterMap.1 hc
  rw [contextEntry, Option.ite_none_left_eq_some, Option.some.injEq] at heq
  rw [← heq.2]
  exact contains_trimSpace (hclone e he)

theorem free_withAuthorization (hp : p ≠ "")
    (hfree : ∀ name ∈ h.lines.keys, name ≠ "Authorization" →
      contains (trimSpace (h.get name)) p = false) : (h.withAuthorization "").Free p := by
  intro name hname
  have hcanonical := (h.withAuthorization "").canonical name hname
  by_cases hauth : name = "Authorization"
  · rw [hauth] at hcanonical ⊢
    rw [get_withAuthorization h hcanonical]
    exact contains_trimSpace (contains_empty hp)
  · have hne : canonicalHeaderKey name ≠ "Authorization" := by rwa [hcanonical]
    have hkeys : name ∈ "Authorization" :: h.lines.keys.erase "Authorization" := by
      rwa [withAuthorization, AList.keys_insert] at hname
    have hmem := mem_of_mem_erase ((mem_cons.1 hkeys).resolve_left hauth)
    rw [get_of_ne (h.withAuthorization_same "") hne]
    exact hfree name hmem hauth

end HttpHeader

namespace OverrideInfo

variable {Body : Type} (eng : OverrideEngine Body) (r : HeaderRequest) (body : Body)
  (info : OverrideInfo)

def withApiKey (key : String) : OverrideInfo :=
  { info with attempt.channelMeta := some { info.channelMeta with apiKey := key } }

def operations : List ParamOperation :=
  (tryParseOperations info.channelMeta.paramOverride).getD []

def overrideSource (h : HttpHeader) : Except String HeaderMap :=
  Except.map (fun r : Body × OverrideInfo => r.2.getEffectiveHeaderOverride)
    ({ info with requestHeaders := h.cloneRequestHeaders }.applyParamOverrideWithRelayInfo eng body)

theorem upstreamHeaders_error {e : String} (h : info.overrideSource eng body r.header = .error e) :
    info.upstreamHeaders eng r body = .error e := by
  simp only [overrideSource] at h
  simp only [upstreamHeaders]
  split
  · rename_i happly
    rw [happly] at h
    exact h
  · rename_i happly
    rw [happly] at h
    exact absurd h (by simp [Except.map])

theorem upstreamHeaders_ok (h : info.overrideSource eng body r.header = .ok source) :
    info.upstreamHeaders eng r body = (info.headerEnv r).processHeaderOverride source := by
  simp only [overrideSource] at h
  simp only [upstreamHeaders]
  split
  · rename_i happly
    rw [happly] at h
    exact absurd h (by simp [Except.map])
  · rename_i body' info' happly
    rw [happly, Except.map, Except.ok.injEq] at h
    rw [h]
    rcases applyParamOverrideWithRelayInfo_cases happly with ⟨-, rfl⟩ | ⟨-, ctx, rfl⟩ <;> rfl

def headerContext (h : HttpHeader) : OverrideContext :=
  { info with requestHeaders := h.cloneRequestHeaders }.buildParamOverrideContext

def leftOverride (ctx : OverrideContext) : HeaderMap :=
  sanitizeHeaderOverrideMap (HeaderMap.toJson (sanitizeHeaderOverrideMap
    (HeaderMap.toJson ctx.headerOverride)))

theorem effective_of_apply :
    (info.applyParamOverrideWithRelayInfo eng body).map (fun r => r.2.getEffectiveHeaderOverride) =
    if info.channelMeta.paramOverride.isEmpty then .ok info.getEffectiveHeaderOverride
    else (eng.applyParamOverride body info.channelMeta.paramOverride
      info.buildParamOverrideContext).map fun r => leftOverride r.2 := by
  rw [applyParamOverrideWithRelayInfo]
  split_ifs
  · rfl
  · cases eng.applyParamOverride body info.channelMeta.paramOverride
      info.buildParamOverrideContext <;> rfl

theorem overrideSource_eq (h : HttpHeader) : info.overrideSource eng body h =
    if info.channelMeta.paramOverride.isEmpty then .ok info.getEffectiveHeaderOverride
    else (eng.applyParamOverride body info.channelMeta.paramOverride (info.headerContext h)).map
      fun r => leftOverride r.2 :=
  effective_of_apply eng body _

theorem overrideSource_withApiKey (h : HttpHeader) (key : String) :
    (info.withApiKey key).overrideSource eng body h = info.overrideSource eng body h := by
  rw [overrideSource_eq, overrideSource_eq]
  rfl

theorem headerContext_alike {h' : HttpHeader} (hsame : h.SameButAuthorization h') :
    (info.headerContext h).Alike (info.headerContext h') := by
  refine ⟨?_, fun key hkey => ?_⟩
  · simp [headerContext, buildParamOverrideContext, getEffectiveHeaderOverride, channelMeta]
  · simp only [headerContext, buildParamOverrideContext]
    exact buildRequestHeadersContext_lookup (HttpHeader.cloneRequestHeaders_erase hsame) hkey

theorem overrideSource_congr {h' : HttpHeader} (hsame : h.SameButAuthorization h')
    (hops : ∀ op ∈ info.operations, op.IsHeaderOperation ∧ op.AvoidsAuthorization eng) :
    info.overrideSource eng body h = info.overrideSource eng body h' := by
  rw [overrideSource_eq, overrideSource_eq]
  split_ifs
  · rfl
  · rcases (OverrideEngine.applyParamOverride_alike body hops
      (info.headerContext_alike hsame)).out with ⟨e, hx, hy⟩ | ⟨a, b, hx, hy, -, hctx⟩
    · rw [hx, hy]
    · rw [hx, hy, Except.map, Except.map, leftOverride, leftOverride, hctx.1]

theorem normalized_overrideSource
    (hsource : info.overrideSource eng body h = .ok source) : source.Normalized := by
  rw [overrideSource_eq] at hsource
  split_ifs at hsource
  · rw [Except.ok.injEq] at hsource
    rw [← hsource, getEffectiveHeaderOverride]
    split_ifs
    · exact normalized_sanitize _
    · exact normalized_sanitize _
  · generalize eng.applyParamOverride body _ _ = x at hsource
    rcases x with e | x
    · exact absurd hsource (by simp [Except.map])
    · rw [Except.map] at hsource
      cases hsource
      exact normalized_sanitize _

theorem free_overrideSource (hp : p ≠ "") (hcomma : ',' ∉ p.toList)
    (hsource : info.overrideSource eng body h = .ok source)
    (hruntime : info.useRuntimeHeadersOverride = false)
    (hoverride : ∀ m ∈ info.channelMeta.headersOverride, contains m.2.format p = false)
    (hops : ∀ op ∈ info.operations, op.IsHeaderOperation ∧ contains op.value.format p = false)
    (hheaders : HeaderMap.Free p (buildRequestHeadersContext h.cloneRequestHeaders)) :
    HeaderMap.Free p source := by
  have heffective : HeaderMap.Free p info.getEffectiveHeaderOverride := by
    rw [getEffectiveHeaderOverride, hruntime]
    exact free_sanitize hp hoverride
  rw [overrideSource_eq] at hsource
  split_ifs at hsource
  · rw [Except.ok.injEq] at hsource
    rwa [← hsource]
  · cases happly : eng.applyParamOverride body info.channelMeta.paramOverride
      (info.headerContext h) with
    | error e =>
      rw [happly] at hsource
      exact absurd hsource (by simp [Except.map])
    | ok x =>
      rw [happly, Except.map, Except.ok.injEq] at hsource
      have hctx : (info.headerContext h).Free p := ⟨free_sanitize_toJson hp heffective, hheaders⟩
      rw [← hsource]
      exact free_sanitize_toJson hp (free_sanitize_toJson hp
        (OverrideEngine.free_applyParamOverride hp hcomma hops hctx happly).1)

/-- The entry is expanded, and its header is not overwritten. -/
def Sends (e : Σ _ : String, String) : Prop :=
  (info.headerEnv r).Expands e ∧ (info.headerEnv r).Keeps e

/-- No text of the administrator, as it is printed, has `p`. -/
def WrittenFree (p : String) : Prop :=
  info.useRuntimeHeadersOverride = false ∧
  (∀ m ∈ info.channelMeta.headersOverride, contains m.2.format p = false) ∧
  ∀ op ∈ info.operations, op.IsHeaderOperation ∧ contains op.value.format p = false

theorem withApiKey_iff : (∀ key key', (info.withApiKey key).upstreamHeaders eng r body =
      (info.withApiKey key').upstreamHeaders eng r body) ↔
    ∀ source, info.overrideSource eng body r.header = .ok source →
      (info.headerEnv r).Accepts source → ∀ e ∈ source.entries, info.Sends r e →
        isClientHeader e.2 = false → contains e.2 apiKeyPlaceholder = false := by
  cases hsource : info.overrideSource eng body r.header with
  | error =>
    refine ⟨fun _ source h => absurd h (by simp), fun _ key key' => ?_⟩
    rw [upstreamHeaders_error eng r body _ ((overrideSource_withApiKey ..).trans hsource),
      upstreamHeaders_error eng r body _ ((overrideSource_withApiKey ..).trans hsource)]
  | ok source =>
    have hheaders : ∀ key, (info.withApiKey key).upstreamHeaders eng r body =
        ((info.headerEnv r).withKey key).processHeaderOverride source := by
      intro key
      rw [upstreamHeaders_ok eng r body _ ((overrideSource_withApiKey ..).trans hsource)]
      rfl
    simp [hheaders,
      (info.headerEnv r).withKey_iff       (info.normalized_overrideSource eng body hsource),
      forall_eq', Sends, and_imp]

theorem authorization_iff
    (hops : ∀ op ∈ info.operations, op.IsHeaderOperation ∧ op.AvoidsAuthorization eng) :
    (∀ h, h.SameButAuthorization r.header →
      info.upstreamHeaders eng { r with header := h } body = info.upstreamHeaders eng r body) ↔
    ∀ source, info.overrideSource eng body r.header = .ok source →
      (info.headerEnv r).Accepts source → ∀ e ∈ source.entries, info.Sends r e →
        isClientHeader e.2 = true → ¬ HeaderEnv.NamesAuthorization e.2 := by
  have hcongr : ∀ h, h.SameButAuthorization r.header →
      info.overrideSource eng body h = info.overrideSource eng body r.header := fun h hsame =>
    info.overrideSource_congr eng body hsame hops
  cases hsource : info.overrideSource eng body r.header with
  | error =>
    refine ⟨fun _ source h => absurd h (by simp), fun _ h hsame => ?_⟩
    rw [upstreamHeaders_error eng r body _ hsource,
      upstreamHeaders_error eng { r with header := h } body _ ((hcongr h hsame).trans hsource)]
  | ok source =>
    have hheaders : ∀ h, h.SameButAuthorization r.header →
        info.upstreamHeaders eng { r with header := h } body =
          ((info.headerEnv r).withHeader h).processHeaderOverride source := by
      intro h hsame
      rw [upstreamHeaders_ok eng { r with header := h } body _ ((hcongr h hsame).trans hsource)]
      rfl
    have hiff := (info.headerEnv r).withHeader_iff (info.normalized_overrideSource eng body hsource)
    simp only [Except.ok.injEq, forall_eq', Sends, and_imp]
    rw [← hiff, upstreamHeaders_ok eng r body _ hsource]
    constructor
    · intro h h' hsame
      rw [← hheaders h' hsame]
      exact h h' hsame
    · intro h h' hsame
      rw [hheaders h' hsame]
      exact h h' hsame

theorem withApiKey_of_free (hwritten : info.WrittenFree apiKeyPlaceholder)
    (hheaders : r.header.Free apiKeyPlaceholder) (key key' : String) :
    (info.withApiKey key).upstreamHeaders eng r body =
      (info.withApiKey key').upstreamHeaders eng r body := by
  refine (info.withApiKey_iff eng r body).2 (fun source hsource _ e he _ _ => ?_) key key'
  exact info.free_overrideSource eng body (by decide) (by decide) hsource hwritten.1 hwritten.2.1
    hwritten.2.2 hheaders.context e he

theorem authorization_of_free (hwritten : info.WrittenFree clientHeaderPlaceholderPrefix)
    (hops : ∀ op ∈ info.operations, op.AvoidsAuthorization eng)
    (hheaders : ∀ name ∈ r.header.lines.keys, name ≠ "Authorization" →
      contains (trimSpace (r.header.get name)) clientHeaderPlaceholderPrefix = false)
        (hsame : h.SameButAuthorization r.header) :
    info.upstreamHeaders eng { r with header := h } body = info.upstreamHeaders eng r body := by
  have hoperations : ∀ op ∈ info.operations, op.IsHeaderOperation ∧ op.AvoidsAuthorization eng :=
    fun op hop => ⟨(hwritten.2.2 op hop).1, hops op hop⟩
  refine (info.authorization_iff eng r body hoperations).2
    (fun source hsource _ e he _ => ?_) h hsame
  have hsource' := (info.overrideSource_congr eng body (r.header.withAuthorization_same "")
    hoperations).trans hsource
  have hfree := info.free_overrideSource eng body (by decide) (by decide) hsource' hwritten.1
    hwritten.2.1 hwritten.2.2 (HttpHeader.free_withAuthorization (by decide) hheaders).context e he
  intro hclient
  have hpre := isPrefixOf_iff_prefix.1 hclient
  exact absurd (hpre.isInfix.trans (trimSpace_isInfix e.2)) (contains_eq_false_iff.1 hfree)

/-- What an attempt sends is the same for every API key exactly if the override left is refused or
no entry that is filled has the key's placeholder; and, after operations that do not name
`Authorization`, for every value of that client header exactly if no entry stands for it. -/
theorem client_headers_inert_iff : ((∀ key key', (info.withApiKey key).upstreamHeaders eng r body =
        (info.withApiKey key').upstreamHeaders eng r body) ↔
      ∀ source, info.overrideSource eng body r.header = .ok source →
        (info.headerEnv r).Accepts source → ∀ e ∈ source.entries, info.Sends r e →
          isClientHeader e.2 = false → contains e.2 apiKeyPlaceholder = false) ∧
    ((∀ op ∈ info.operations, op.IsHeaderOperation ∧ op.AvoidsAuthorization eng) →
      ((∀ h, h.SameButAuthorization r.header → info.upstreamHeaders eng
        { r with header := h } body =
          info.upstreamHeaders eng r body) ↔
        ∀ source, info.overrideSource eng body r.header = .ok source →
          (info.headerEnv r).Accepts source → ∀ e ∈ source.entries, info.Sends r e →
            isClientHeader e.2 = true → ¬ HeaderEnv.NamesAuthorization e.2)) ∧
    (info.WrittenFree apiKeyPlaceholder → r.header.Free apiKeyPlaceholder →
      ∀ key key', (info.withApiKey key).upstreamHeaders eng r body =
        (info.withApiKey key').upstreamHeaders eng r body) ∧
    (info.WrittenFree clientHeaderPlaceholderPrefix →
      (∀ op ∈ info.operations, op.AvoidsAuthorization eng) →
      (∀ name ∈ r.header.lines.keys, name ≠ "Authorization" →
        contains (trimSpace (r.header.get name)) clientHeaderPlaceholderPrefix = false) →
      ∀ h, h.SameButAuthorization r.header → info.upstreamHeaders eng { r with header := h } body =
        info.upstreamHeaders eng r body) := by
  refine ⟨info.withApiKey_iff eng r body, info.authorization_iff eng r body, ?_, ?_⟩
  · intro hwritten hheaders key key'
    exact info.withApiKey_of_free eng r body hwritten hheaders key key'
  · intro hwritten hops hheaders h hsame
    exact info.authorization_of_free eng r body hwritten hops hheaders hsame

end OverrideInfo

theorem canonicalHeaderKey_prompt : canonicalHeaderKey "X-Prompt" = "X-Prompt" := by decide

def sampleClient (value : String) : HttpHeader where
  lines := AList.singleton "X-Prompt" [value]
  canonical name hname := by
    rw [mem_singleton.1 hname]
    exact canonicalHeaderKey_prompt

def samplePass : OverrideInfo where
  attempt :=
    { originModelName := "m"
      channelMeta := some
        { paramOverride := [("operations", .arr [.obj [("mode", .str "pass_headers"),
            ("value", .str "X-Prompt")]])] } }

def sampleHeaderRequest (h : HttpHeader) : HeaderRequest where
  header := h
  userId := 7
  compile _ := none

theorem samplePass_operations : samplePass.operations =
    [{ mode := "pass_headers", value := .str "X-Prompt" }] := by
  rfl

theorem samplePass_written (hp : contains "X-Prompt" p = false) : samplePass.WrittenFree p := by
  refine ⟨rfl, fun m hm => absurd hm not_mem_nil, fun op hop => ?_⟩
  rw [samplePass_operations, mem_singleton] at hop
  rw [hop]
  exact ⟨⟨rfl, by decide⟩, hp⟩

theorem samplePass_avoids : ∀ op ∈ samplePass.operations,
    op.AvoidsAuthorization OverrideRequest.sampleEngine := by
  intro op hop name hname
  rw [samplePass_operations, mem_singleton] at hop
  have hnames : ParamOperation.headerNames OverrideRequest.sampleEngine
      { mode := "pass_headers", value := .str "X-Prompt" } = ["x-prompt"] := by decide
  rw [hop, hnames, mem_singleton] at hname
  rw [hname]
  decide

theorem client_headers_inert_iff_sample :
    (∀ key key', (samplePass.withApiKey key).upstreamHeaders OverrideRequest.sampleEngine
        (sampleHeaderRequest (sampleClient "hello")) () =
      (samplePass.withApiKey key').upstreamHeaders OverrideRequest.sampleEngine
        (sampleHeaderRequest (sampleClient "hello")) ()) ∧
    ∀ h, h.SameButAuthorization (sampleClient "hello") →
      samplePass.upstreamHeaders OverrideRequest.sampleEngine (sampleHeaderRequest h) () =
        samplePass.upstreamHeaders OverrideRequest.sampleEngine
          (sampleHeaderRequest (sampleClient "hello")) () := by
  have hinert := samplePass.client_headers_inert_iff OverrideRequest.sampleEngine
    (sampleHeaderRequest (sampleClient "hello")) ()
  have hwritten := samplePass_written (p := clientHeaderPlaceholderPrefix) (by decide)
  have hvalue : contains (trimSpace ((sampleClient "hello").get "X-Prompt")) apiKeyPlaceholder =
    false := by decide
  have hvalue' : contains (trimSpace ((sampleClient "hello").get "X-Prompt"))
    clientHeaderPlaceholderPrefix = false := by decide
  refine ⟨hinert.2.2.1 (samplePass_written (by decide)) ?_, ?_⟩
  · intro name hname
    rw [mem_singleton.1 hname]
    exact hvalue
  · have hiff := hinert.2.1 fun op hop => ⟨(hwritten.2.2 op hop).1, samplePass_avoids op hop⟩
    refine hiff.2 (hiff.1 (hinert.2.2.2 hwritten samplePass_avoids ?_))
    intro name hname _
    rw [mem_singleton.1 hname]
    exact hvalue'

def samplePrompt (h : HttpHeader) (key : String) : Option String :=
  (((samplePass.withApiKey key).upstreamHeaders OverrideRequest.sampleEngine (sampleHeaderRequest h)
    ()).toOption).bind (AList.lookup "x-prompt")

/-- The administrator has written no placeholder. -/
theorem client_template_filled : samplePass.WrittenFree apiKeyPlaceholder ∧
    samplePass.WrittenFree clientHeaderPlaceholderPrefix ∧
    (∀ op ∈ samplePass.operations, op.AvoidsAuthorization OverrideRequest.sampleEngine) ∧
    samplePrompt (sampleClient "\x7bapi_key\x7d") "sk-1" = some "sk-1" ∧
    samplePrompt (sampleClient "\x7bapi_key\x7d") "sk-2" = some "sk-2" ∧
    samplePrompt ((sampleClient "\x7bclient_header:Authorization\x7d").withAuthorization "a")
      "sk-1" =
      some "a" ∧
    samplePrompt ((sampleClient "\x7bclient_header:Authorization\x7d").withAuthorization "b")
      "sk-1" =
      some "b" := by
  refine ⟨samplePass_written (by decide), samplePass_written (by decide),
    samplePass_avoids, ?_⟩
  decide +kernel

end AggreApi
