import AggreApi.Proofs.ChannelContext
import AggreApi.Proofs.Text
import AggreApi.ParamOverride

/-!
# The header overrides of earlier attempts

What an attempt reads of the channel meta is the same whichever channels came before, but the
runtime header override outlives the attempt that set it.
-/

namespace AggreApi

open AttemptRecord ChannelRequest

variable {info : AttemptInfo} {r r' : AttemptRecord} {handler : RelayHandler}

section names
variable {unmarshalJson : String → Option Json}

theorem rank_le_of_lookup : ∀ {members : List (String × Json)} {k : String} {v : Json},
    members.lookup k = some v → v.rank ≤ Json.rankMembers members
  | (k', w) :: ms, k, v, h => by
    rw [List.lookup_cons] at h
    rw [Json.rankMembers]
    split at h
    · cases h
      exact le_max_left _ _
    · exact (rank_le_of_lookup h).trans (le_max_right _ _)

theorem rank_pos (v : Json) : 0 < v.rank := by
  cases v <;> simp [Json.rank]

theorem passThroughNames_of_rank_le (hrank : ∀ s v, unmarshalJson s = some v → v.rank ≤ s.length) :
    ∀ (f g : ℕ) (v : Json), v.rank ≤ f → v.rank ≤ g →
      passThroughNames unmarshalJson f v = passThroughNames unmarshalJson g v
  | 0, _, v, hf, _ => absurd (rank_pos v) (by omega)
  | _, 0, v, _, hg => absurd (rank_pos v) (by omega)
  | f + 1, g + 1, .null, _, _ => rfl
  | f + 1, g + 1, .bool _, _, _ => rfl
  | f + 1, g + 1, .num _, _, _ => rfl
  | f + 1, g + 1, .arr _, _, _ => rfl
  | f + 1, g + 1, .str raw, hf, hg => by
    simp only [passThroughNames]
    split
    · rfl
    · split
      · rename_i parsed hparsed
        have hle : parsed.rank ≤ raw.length := by
          split at hparsed
          · exact (hrank _ _ hparsed).trans (length_trimSpace_le raw)
          · cases hparsed
        rw [Json.rank] at hf hg
        exact passThroughNames_of_rank_le hrank f g parsed (by omega) (by omega)
      · rfl
  | f + 1, g + 1, .obj members, hf, hg => by
    rw [Json.rank] at hf hg
    have hmember : ∀ key raw, members.lookup key = some raw →
        passThroughNames unmarshalJson f raw = passThroughNames unmarshalJson g raw := by
      intro key raw hraw
      have hle := rank_le_of_lookup hraw
      exact passThroughNames_of_rank_le hrank f g raw (by omega) (by omega)
    simp only [passThroughNames]
    congr 2
    refine List.flatMap_congr fun key _ => ?_
    cases hraw : members.lookup key with
    | none => rfl
    | some raw => simp only [hmember key raw hraw]

end names

def ChannelMeta.leftover (m : ChannelMeta) (org : String) (index : ℕ) (version : String) :
    ChannelMeta :=
  { m with organization := org, channelMultiKeyIndex := index, apiVersion := version }

namespace AttemptInfo

variable {env : ChannelEnv} {org version : String} {index : ℕ}

def leftover (info : AttemptInfo) (org : String) (index : ℕ) (version : String) : AttemptInfo :=
  { info with channelMeta := info.channelMeta.map (·.leftover org index version) }

section
variable (h : info.channelMeta.isSome)
include h

theorem setUpstream_leftover (name : String) (mapped : Bool) :
    (info.leftover org index version).setUpstream name mapped =
      (info.setUpstream name mapped).leftover org index version := by
  obtain ⟨n, _ | m⟩ := info
  · cases h
  · rfl

theorem finishMapping_leftover (compact : Bool) (name : String) :
    (info.leftover org index version).finishMapping compact name =
      (info.finishMapping compact name).leftover org index version := by
  obtain ⟨n, _ | m⟩ := info
  · cases h
  · cases compact <;> rfl

theorem upstream_leftover :
    ((info.leftover org index version).channelMeta.getD {}).upstreamModelName =
      (info.channelMeta.getD {}).upstreamModelName := by
  obtain ⟨n, _ | m⟩ := info
  · cases h
  · rfl

theorem modelMappedHelper_leftover (compact : Bool) (mapping : String) :
    (info.leftover org index version).modelMappedHelper env compact mapping =
      ((info.modelMappedHelper env compact mapping).1.leftover org index version,
        (info.modelMappedHelper env compact mapping).2) := by
  have hname : (info.leftover org index version).originModelName = info.originModelName := rfl
  simp only [modelMappedHelper, hname, upstream_leftover h]
  split
  · rw [finishMapping_leftover h]
  · split
    · rfl
    · split
      · rw [setUpstream_leftover h]
      · rw [setUpstream_leftover h, finishMapping_leftover rfl]
      · rw [finishMapping_leftover h]
      · rw [setUpstream_leftover h]

end

theorem modelMappedHelper_isSome {info : AttemptInfo} (h : info.channelMeta.isSome)
    (compact : Bool) (mapping : String) :
    (info.modelMappedHelper env compact mapping).1.channelMeta.isSome := by
  simp only [modelMappedHelper, finishMapping]
  split
  · split
    · rfl
    · exact h
  · split
    · exact h
    · split
      · rfl
      · split <;> rfl
      · split
        · rfl
        · exact h
      · rfl

/-- Whether the Gemini handler leaves the names of a request without thinking alone. -/
def keepsThinking (env : ChannelEnv) (name : String) : Bool :=
  contains name "-nothinking" || !env.containPriceOrRatio (name ++ "-nothinking")

theorem dropThinking_cases (info : AttemptInfo) :
    (keepsThinking env info.originModelName = true ∧ info.dropThinking env = info) ∨
    (keepsThinking env info.originModelName = false ∧
      info.dropThinking env =
        { originModelName := info.originModelName ++ "-nothinking"
          channelMeta := some { info.channelMeta.getD {} with
            upstreamModelName := info.originModelName ++ "-nothinking" } }) := by
  unfold dropThinking
  cases hkeep : keepsThinking env info.originModelName with
  | true => exact .inl ⟨rfl, if_pos hkeep⟩
  | false => exact .inr ⟨rfl, if_neg (Bool.eq_false_iff.1 hkeep)⟩

theorem dropThinking_leftover (h : info.channelMeta.isSome) :
    (info.leftover org index version).dropThinking env =
      (info.dropThinking env).leftover org index version := by
  have hname : (info.leftover org index version).originModelName = info.originModelName := rfl
  have hcases := @dropThinking_cases env (info.leftover org index version)
  rw [hname] at hcases
  rcases hcases with ⟨hkeep, hleft⟩ | ⟨hkeep, hleft⟩ <;>
    rcases @dropThinking_cases env info with ⟨hkeep', hright⟩ | ⟨hkeep', hright⟩
  · rw [hleft, hright]
  · exact absurd (hkeep.symm.trans hkeep') (by simp)
  · exact absurd (hkeep.symm.trans hkeep') (by simp)
  · rw [hleft, hright]
    obtain ⟨n, _ | m⟩ := info
    · cases h
    · rfl

theorem mappedName_leftover {r : AttemptInfo × Option String} (h : r.1.channelMeta.isSome) :
    mappedName (r.1.leftover org index version, r.2) = mappedName r := by
  simp [mappedName, upstream_leftover h]

theorem enterHandler_leftover {handler : RelayHandler} {c d : ChannelContext}
    {info info' : AttemptInfo}
    (hmeta : newChannelMeta env c = (newChannelMeta env d).leftover org index version)
    (hmap : c.modelMapping = d.modelMapping)
    (hname : info.originModelName = info'.originModelName) :
    (info.enterHandler env handler c).1 =
        (info'.enterHandler env handler d).1.leftover org index version ∧
      (info.enterHandler env handler c).2.mapped = (info'.enterHandler env handler d).2.mapped := by
  have hinit : info.initChannelMeta env c =
      (info'.initChannelMeta env d).leftover org index version := by
    obtain ⟨n, m⟩ := info
    obtain ⟨n', m'⟩ := info'
    obtain rfl : n = n' := hname
    simp [initChannelMeta, leftover, hmeta]
  have hsome : (info'.initChannelMeta env d).channelMeta.isSome := rfl
  have hapi : (newChannelMeta env c).apiType = (newChannelMeta env d).apiType := by
    rw [hmeta]
    rfl
  have hmapped := fun compact : Bool =>
    @modelMappedHelper_isSome env _ hsome compact d.modelMapping
  cases handler with
  | realtime => exact ⟨hinit, rfl⟩
  | other =>
    simp only [enterHandler, hinit, hmap, modelMappedHelper_leftover hsome]
    exact ⟨trivial, congrArg some (mappedName_leftover (hmapped false))⟩
  | responsesCompact =>
    simp only [enterHandler, hinit, hmap, hapi, modelMappedHelper_leftover hsome]
    split_ifs
    · exact ⟨rfl, congrArg some (mappedName_leftover (hmapped true))⟩
    · exact ⟨rfl, rfl⟩
  | gemini =>
    simp only [enterHandler, hinit, hmap, modelMappedHelper_leftover hsome]
    refine ⟨?_, congrArg some (mappedName_leftover (hmapped false))⟩
    split_ifs
    · exact dropThinking_leftover (hmapped false)
    · rfl

theorem dropThinking_isSome (h : info.channelMeta.isSome) :
    (info.dropThinking env).channelMeta.isSome := by
  rcases @dropThinking_cases env info with ⟨-, hdrop⟩ | ⟨-, hdrop⟩
  · rw [hdrop]
    exact h
  · rw [hdrop]
    rfl

theorem enterHandler_isSome {c : ChannelContext} :
    (info.enterHandler env handler c).1.channelMeta.isSome := by
  have hsome : (info.initChannelMeta env c).channelMeta.isSome := rfl
  have hmapped := fun compact : Bool =>
    @modelMappedHelper_isSome env _ hsome compact c.modelMapping
  cases handler with
  | realtime => rfl
  | other => exact hmapped false
  | responsesCompact =>
    simp only [enterHandler]
    split
    · exact hmapped true
    · rfl
  | gemini =>
    simp only [enterHandler]
    split
    · exact dropThinking_isSome (hmapped false)
    · exact hmapped false

def headersOverride (info : AttemptInfo) : JsonObject := (info.channelMeta.getD {}).headersOverride

def IgnoresMapping {α : Type*} (f : ChannelMeta → α) : Prop :=
  ∀ m name mapped, f { m with upstreamModelName := name, isModelMapped := mapped } = f m

section Field

variable {α : Type*} {f : ChannelMeta → α}

theorem finishMapping_field (hf : IgnoresMapping f) (info : AttemptInfo) (compact : Bool)
    (name : String) :
    f ((info.finishMapping compact name).channelMeta.getD {}) = f (info.channelMeta.getD {}) := by
  cases compact with
  | false => rfl
  | true => exact hf _ _ _

theorem modelMappedHelper_field (hf : IgnoresMapping f) (info : AttemptInfo) (compact : Bool)
    (mapping : String) :
    f ((info.modelMappedHelper env compact mapping).1.channelMeta.getD {}) =
      f (info.channelMeta.getD {}) := by
  simp only [modelMappedHelper]
  split
  · rw [finishMapping_field hf]
  · split
    · rfl
    · split
      · exact hf _ _ _
      · rw [finishMapping_field hf]
        exact hf _ _ _
      · rw [finishMapping_field hf]
      · exact hf _ _ _

theorem dropThinking_field (hf : IgnoresMapping f) (info : AttemptInfo) :
    f ((info.dropThinking env).channelMeta.getD {}) = f (info.channelMeta.getD {}) := by
  rcases @dropThinking_cases env info with ⟨-, hdrop⟩ | ⟨-, hdrop⟩
  · rw [hdrop]
  · rw [hdrop]
    exact hf _ _ _

theorem enterHandler_field (hf : IgnoresMapping f) (handler : RelayHandler) (c : ChannelContext)
    (info : AttemptInfo) :
    f ((info.enterHandler env handler c).1.channelMeta.getD {}) = f (newChannelMeta env c) := by
  have hmapped := fun compact : Bool =>
    @modelMappedHelper_field env _ _ hf (info.initChannelMeta env c) compact c.modelMapping
  cases handler with
  | realtime => rfl
  | other => exact hmapped false
  | responsesCompact =>
    simp only [enterHandler]
    split
    · exact hmapped true
    · rfl
  | gemini =>
    simp only [enterHandler]
    split
    · exact (dropThinking_field hf _).trans (hmapped false)
    · exact hmapped false

end Field

theorem enterHandler_headersOverride (handler : RelayHandler) (c : ChannelContext)
    (info : AttemptInfo) :
    (info.enterHandler env handler c).1.headersOverride = c.headerOverride :=
  enterHandler_field (f := ChannelMeta.headersOverride) (fun _ _ _ => rfl) handler c info

theorem enterHandler_sends {c : ChannelContext}
    (hmap : c.modelMapping = "") (htype : c.channelType = 1) :
    (info.enterHandler env handler c).2.sends handler = true := by
  have hapi : (newChannelMeta env c).apiType = .openAI := by
    simp only [newChannelMeta, htype]
    decide
  have hhelper := fun (compact : Bool) (i : AttemptInfo) =>
    (by simp [modelMappedHelper] : (i.modelMappedHelper env compact "").2 = none)
  cases handler <;>
    simp [enterHandler, hmap, hapi, sends, mappedName, hhelper]

end AttemptInfo

namespace ChannelContext

variable {env : ChannelEnv} {ch : Channel} {pick : KeyPick} {baseUrl : String}

theorem afterSetup_headerOverride (c : ChannelContext) (name : String) :
    (afterSetup env ch pick baseUrl c name).headerOverride = ch.headerOverride := by
  rcases setOther_cases _ ch with ⟨-, h⟩ | ⟨-, h⟩ | ⟨-, -, _, _, h⟩ <;> rw [afterSetup, h] <;> rfl

theorem afterSetup_channelType (c : ChannelContext) (name : String) :
    (afterSetup env ch pick baseUrl c name).channelType = ch.type := by
  rcases setOther_cases _ ch with ⟨-, h⟩ | ⟨-, h⟩ | ⟨-, -, _, _, h⟩ <;> rw [afterSetup, h] <;> rfl

theorem newChannelMeta_setup_leftover (c : ChannelContext) (name : String) :
    ∃ org index version, newChannelMeta env (afterSetup env ch pick baseUrl c name) =
      (newChannelMeta env (afterSetup env ch pick baseUrl {} name)).leftover org index version := by
  rw [afterSetup, afterSetup, newChannelMeta_setOther _ rfl, newChannelMeta_setOther _ rfl]
  exact ⟨_, _, _, rfl⟩

end ChannelContext

namespace OverrideInfo

variable {Body : Type} {org version : String} {index : ℕ}

def leftover (info : OverrideInfo) (org : String) (index : ℕ) (version : String) : OverrideInfo :=
  { info with attempt := info.attempt.leftover org index version }

theorem channelMeta_leftover {info : OverrideInfo} (h : info.attempt.channelMeta.isSome) :
    (info.leftover org index version).channelMeta = info.channelMeta.leftover
    org index version := by
  obtain ⟨⟨n, _ | m⟩, _⟩ := info
  · cases h
  · rfl

theorem getEffectiveHeaderOverride_leftover {info : OverrideInfo}
    (h : info.attempt.channelMeta.isSome) :
    (info.leftover org index version).getEffectiveHeaderOverride =
      info.getEffectiveHeaderOverride := by
  simp only [getEffectiveHeaderOverride, channelMeta_leftover h]
  rfl

theorem buildParamOverrideContext_leftover {info : OverrideInfo}
    (h : info.attempt.channelMeta.isSome) :
    (info.leftover org index version).buildParamOverrideContext =
      info.buildParamOverrideContext := by
  simp only [buildParamOverrideContext, requestFacts, getEffectiveHeaderOverride_leftover h,
    channelMeta_leftover h]
  rfl

theorem applyParamOverrideWithRelayInfo_leftover {info : OverrideInfo}
    (h : info.attempt.channelMeta.isSome) (eng : OverrideEngine Body) (body : Body) :
    (info.leftover org index version).applyParamOverrideWithRelayInfo eng body =
      (info.applyParamOverrideWithRelayInfo eng body).map
        fun r => (r.1, r.2.leftover org index version) := by
  have hparam : (info.leftover org index version).channelMeta.paramOverride =
      info.channelMeta.paramOverride := by
    rw [channelMeta_leftover h]
    rfl
  simp only [applyParamOverrideWithRelayInfo, hparam, buildParamOverrideContext_leftover h]
  split
  · rfl
  · split <;> rfl

theorem applyParamOverrideWithRelayInfo_cases {info info' : OverrideInfo}
    {eng : OverrideEngine Body} {body body' : Body}
    (h : info.applyParamOverrideWithRelayInfo eng body = .ok (body', info')) :
    (info.channelMeta.paramOverride.isEmpty = true ∧ info' = info) ∨
    (info.channelMeta.paramOverride.isEmpty = false ∧
      ∃ ctx, info' = info.syncRuntimeHeaderOverride ctx) := by
  simp only [applyParamOverrideWithRelayInfo] at h
  split at h
  · rename_i hempty
    cases h
    exact .inl ⟨hempty, rfl⟩
  · rename_i hempty
    split at h
    · cases h
    · cases h
      exact .inr ⟨Bool.eq_false_iff.2 hempty, _, rfl⟩

theorem applyParamOverrideWithRelayInfo_attempt {info info' : OverrideInfo}
    {eng : OverrideEngine Body} {body body' : Body}
    (h : info.applyParamOverrideWithRelayInfo eng body = .ok (body', info')) :
    info'.attempt = info.attempt := by
  rcases applyParamOverrideWithRelayInfo_cases h with ⟨-, rfl⟩ | ⟨-, ctx, rfl⟩ <;> rfl

end OverrideInfo

theorem AttemptRecord.sends_congr
    (h : r.mapped = r'.mapped) : r.sends handler = r'.sends handler := by
  simp [sends, h]

theorem AttemptRecord.edits_congr {passThrough : Bool}
    (h : r.mapped = r'.mapped) : r.edits passThrough = r'.edits passThrough := by
  simp [edits, h]

namespace OverrideRequest

variable {Body : Type} (env : OverrideEnv Body)

/-- Whether the attempt applies a parameter override that is not empty, without an error. -/
def overrides (s : OverrideRequest) (p : OverridePass Body) : Bool :=
  let a := s.base.attempt env.channel env.handler env.modelName p.pick
  match a.2, a.1.info with
  | some r, some info =>
    let oi := infoOf env { s with base := a.1 } p info
    p.converted && r.edits p.passThrough && !oi.channelMeta.paramOverride.isEmpty &&
      (oi.applyParamOverrideWithRelayInfo env.engine p.body).isOk
  | _, _ => false

theorem useOverrides_leftover {b b' : ChannelRequest} {p : OverridePass Body} {org version : String}
    {index : ℕ} (hsome : info.channelMeta.isSome)
    (hmapped : r.mapped = r'.mapped) :
    (useOverrides env ⟨b, ∅, false⟩ p (info.leftover org index version) r).2 =
      (useOverrides env ⟨b', ∅, false⟩ p info r').2 := by
  have hinfo : infoOf env ⟨b, ∅, false⟩ p (info.leftover org index version) =
      (infoOf env ⟨b', ∅, false⟩ p info).leftover org index version := rfl
  simp only [useOverrides, hinfo, sends_congr hmapped,
    edits_congr hmapped]
  rw [OverrideInfo.applyParamOverrideWithRelayInfo_leftover hsome,
    OverrideInfo.getEffectiveHeaderOverride_leftover hsome]
  split
  · cases happly : (infoOf env ⟨b', ∅, false⟩ p info).applyParamOverrideWithRelayInfo env.engine
        p.body with
    | error e => rfl
    | ok out =>
      have hattempt := OverrideInfo.applyParamOverrideWithRelayInfo_attempt happly
      have hsome' : out.2.attempt.channelMeta.isSome := by
        rw [hattempt]
        exact hsome
      exact congrArg some (OverrideInfo.getEffectiveHeaderOverride_leftover hsome')
  · rfl

theorem attempt_of_unused {b : ChannelRequest} {p : OverridePass Body} {pick : KeyPick}
    {baseUrl : String} (hlive : b.ended = false)
    (hkey : p.pick.channel.getNextEnabledKey env.channel.unmarshalRaw p.pick.key = .ok pick)
    (hurl : p.pick.channel.getBaseURL = some baseUrl)
    (hname : b.setupName env.modelName = env.modelName) :
    (attempt env ⟨b, ∅, false⟩ p).2 = (attempt env {} p).2 := by
  simp only [attempt, attempt_of_key _ _ _ hlive hkey hurl,
    attempt_of_key _ _ _ (rfl : ({} : ChannelRequest).ended = false) hkey hurl,
    Option.getD_some]
  obtain ⟨org, index, version, hmeta⟩ := @ChannelContext.newChannelMeta_setup_leftover env.channel
    p.pick.channel pick baseUrl b.ctx env.modelName
  have hsetup : newChannelMeta env.channel
      (b.setupContext env.channel env.modelName p.pick pick baseUrl) =
      (newChannelMeta env.channel (({} : ChannelRequest).setupContext env.channel env.modelName
        p.pick pick baseUrl)).leftover org index version := by
    rw [setupContext, hname]
    exact hmeta
  obtain ⟨hinfo, hmapped⟩ := @AttemptInfo.enterHandler_leftover env.channel org version index
    env.handler _ _ (b.info.getD { originModelName := b.setupName env.modelName })
    { originModelName := env.modelName } hsetup
    (by rw [setupContext_modelMapping, setupContext_modelMapping])
    (by rw [getD_originModelName, hname])
  split
  · rw [enter, hinfo]
    exact useOverrides_leftover env AttemptInfo.enterHandler_isSome hmapped
  · rfl

theorem step_cases (s : OverrideRequest) (p : OverridePass Body) :
    (s.overrides env p = false ∧ ∃ base, s.step env p = { s with base }) ∨
    (s.overrides env p = true ∧ ∃ base runtime, s.step env p = ⟨base, runtime, true⟩) := by
  simp only [step, attempt, overrides]
  cases hmade : (s.base.attempt env.channel env.handler env.modelName p.pick).2 with
  | none => exact .inl ⟨rfl, _, rfl⟩
  | some r =>
    obtain ⟨info, hinfo⟩ := info_of_attempt _ _ _ hmade
    simp only [hinfo, Option.getD_some]
    cases hconv : p.converted with
    | false => exact .inl ⟨rfl, _, rfl⟩
    | true =>
      simp only [Bool.true_and, if_true, useOverrides]
      cases hedits : r.edits p.passThrough with
      | false => exact .inl ⟨rfl, _, rfl⟩
      | true =>
        simp only [Bool.true_and, if_true]
        split
        · rename_i happly
          exact .inl ⟨by simp [happly, Except.isOk, Except.toBool], _, rfl⟩
        · rename_i happly
          rcases OverrideInfo.applyParamOverrideWithRelayInfo_cases happly with
            ⟨hempty, rfl⟩ | ⟨hempty, ctx, rfl⟩
          · exact .inl ⟨by simp [hempty], _, rfl⟩
          · exact .inr ⟨by simp [hempty, happly, Except.isOk, Except.toBool], _, _, rfl⟩

theorem runtime_of_unused (ps : List (OverridePass Body))
    (h : (run (step env) {} ps).useRuntimeHeadersOverride = false) :
    (run (step env) {} ps).runtimeHeadersOverride = ∅ := by
  refine run_inv (I := fun s : OverrideRequest => s.useRuntimeHeadersOverride = false →
    s.runtimeHeadersOverride = ∅) (fun s p ih => ?_) (fun _ => rfl) ps h
  rcases step_cases env s p with ⟨-, base, hstep⟩ | ⟨-, base, runtime, hstep⟩
  · rw [hstep]
    exact ih
  · rw [hstep]
    exact fun huse => absurd huse (by simp)

theorem unused_iff (ps : List (OverridePass Body)) : ∀ s : OverrideRequest,
    (run (step env) s ps).useRuntimeHeadersOverride = false ↔
      s.useRuntimeHeadersOverride = false ∧
        Along (step env) (fun s p => s.overrides env p = false) s ps := by
  induction ps with
  | nil => simp [Along]
  | cons p _ ih =>
    intro s
    rw [run_cons, ih, Along]
    rcases step_cases env s p with ⟨hov, base, hstep⟩ | ⟨hov, base, runtime, hstep⟩
    · rw [hstep, hov]
      simp
    · rw [hstep, hov]
      simp

def plainPass (headers : JsonObject) (body : Body) : OverridePass Body where
  pick := { channel := { id := 0, type := 1, headerOverride := headers } }
  passThrough := true
  body := body

theorem attempt_plainPass {s : OverrideRequest} (hlive : s.base.ended = false)
    (headers : JsonObject) (body : Body) :
    (s.attempt env (plainPass headers body)).2 = some
      (if s.useRuntimeHeadersOverride then
        sanitizeHeaderOverrideMap s.runtimeHeadersOverride.toJson
      else sanitizeHeaderOverrideMap headers) := by
  have hkey : (plainPass headers body).pick.channel.getNextEnabledKey env.channel.unmarshalRaw
      (plainPass headers body).pick.key = .ok ⟨"", 0, 0⟩ := rfl
  have hurl : (plainPass headers body).pick.channel.getBaseURL = some "" := rfl
  simp only [attempt, attempt_of_key _ _ _ hlive hkey hurl, Option.getD_some]
  have hsends : (s.base.enter env.channel env.handler env.modelName
      (plainPass headers body).pick ⟨"", 0, 0⟩ "").2.sends env.handler = true :=
    AttemptInfo.enterHandler_sends (ChannelContext.afterSetup_modelMapping _ _)
      (ChannelContext.afterSetup_channelType _ _)
  have hheaders : (s.base.enter env.channel env.handler env.modelName
      (plainPass headers body).pick ⟨"", 0, 0⟩ "").1.headersOverride = headers :=
    (AttemptInfo.enterHandler_headersOverride _ _ _).trans
      (ChannelContext.afterSetup_headerOverride _ _)
  generalize s.base.enter env.channel env.handler env.modelName (plainPass headers body).pick
    ⟨"", 0, 0⟩ "" = h at hsends hheaders ⊢
  have hedits : h.2.edits true = false := by
    simp only [edits, Bool.not_true]
    split <;> rfl
  simp only [plainPass, if_true, useOverrides, hedits, hsends, Bool.false_eq_true, if_false]
  rw [← hheaders]
  rfl

theorem useOverrides_base (s : OverrideRequest) (p : OverridePass Body) (info : AttemptInfo)
    (r : AttemptRecord) : (s.useOverrides env p info r).1.base = s.base := by
  simp only [useOverrides]
  split
  · split <;> rfl
  · rfl

theorem step_base (s : OverrideRequest) (p : OverridePass Body) :
    (s.step env p).base = s.base.step env.channel env.handler env.modelName p.pick := by
  simp only [step, attempt]
  split
  · rfl
  · split
    · rw [useOverrides_base]
      rfl
    · rfl

theorem run_base (ps : List (OverridePass Body)) : ∀ s : OverrideRequest,
    (run (step env) s ps).base =
      run (ChannelRequest.step env.channel env.handler env.modelName) s.base (ps.map (·.pick)) := by
  induction ps with
  | nil => intro s; rfl
  | cons _ _ ih =>
    intro s
    rw [run_cons, ih, step_base, List.map_cons, run_cons]

theorem exists_sanitize_ne (m : HeaderMap) : ∃ headers, sanitizeHeaderOverrideMap headers ≠ m := by
  by_cases hm : m = ∅
  · refine ⟨[("x", .str "1")], fun h => ?_⟩
    have hx : (sanitizeHeaderOverrideMap [("x", .str "1")]).lookup "x" = some "1" := by
      decide
    rw [h, hm] at hx
    cases hx
  · exact ⟨[], fun h => hm h.symm⟩

/-- While the request's model name is kept: every attempt that can follow uses the headers it would
as the first one, exactly if none so far applied a parameter override. -/
theorem header_override_isolated_iff (ps : List (OverridePass Body))
    (hlive : (run (step env) {} ps).base.ended = false)
    (hname : (run (step env) {} ps).base.setupName env.modelName = env.modelName) :
    (∀ p : OverridePass Body,
      ((run (step env) {} ps).base.attempt env.channel env.handler env.modelName
        p.pick).2.isSome →
      ((run (step env) {} ps).attempt env p).2 = (attempt env {} p).2) ↔
    Along (step env) (fun s p => s.overrides env p = false) {} ps := by
  have hunused := unused_iff env ps {}
  constructor
  · intro hall
    by_contra hno
    have huse : (run (step env) {} ps).useRuntimeHeadersOverride = true := by
      rw [← Bool.not_eq_false]
      exact fun h => hno (hunused.1 h).2
    obtain ⟨p₀, rest, rfl⟩ : ∃ p₀ rest, ps = p₀ :: rest := by
      cases ps with
      | nil => cases huse
      | cons p₀ rest => exact ⟨p₀, rest, rfl⟩
    generalize run (step env) {} (p₀ :: rest) = s at hlive hall huse
    obtain ⟨headers, hne⟩ :=
      exists_sanitize_ne (sanitizeHeaderOverrideMap s.runtimeHeadersOverride.toJson)
    have hmade : (s.base.attempt env.channel env.handler env.modelName
        (plainPass headers p₀.body).pick).2.isSome := by
      rw [ChannelRequest.attempt_of_key _ _ _ hlive rfl rfl]
      rfl
    have hsame := hall (plainPass headers p₀.body) hmade
    rw [attempt_plainPass env hlive, attempt_plainPass env rfl, huse] at hsame
    exact hne (Option.some.inj hsame).symm
  · intro halong p hmade
    have huse := hunused.2 ⟨rfl, halong⟩
    have hrun := runtime_of_unused env ps huse
    have hstart := ChannelRequest.started_of_run env.channel env.handler env.modelName
      ((congrArg ChannelRequest.ended (run_base env ps {})).symm.trans hlive)
    rw [← run_base env ps {}] at hstart
    rcases hstart with hnil | hinfo
    · rw [List.map_eq_nil_iff.1 hnil]
      rfl
    · obtain ⟨pick, baseUrl, hkey, hurl⟩ :=
        ChannelRequest.setup_of_attempt _ _ _ hinfo hmade
      generalize run (step env) {} ps = s at *
      obtain ⟨b, rt, use⟩ := s
      obtain rfl : use = false := huse
      obtain rfl : rt = ∅ := hrun
      exact attempt_of_unused env hlive hkey hurl hname

def sampleEngine : OverrideEngine Unit where
  unmarshalJson _ := none
  unmarshal_rank _ _ h := nomatch h
  applyLegacy _ _ := .ok ()
  checkConditions _ _ _ _ := .ok true
  editBody _ _ _ := .ok ()
  getValue _ _ := none
  setValue _ _ _ := .ok ()
  returnError _ := "param override return error"

def sampleOverrideEnv : OverrideEnv Unit where
  channel := sampleChannelEnv
  handler := .other
  modelName := "m"
  engine := sampleEngine

def sampleTempered : OverridePass Unit where
  pick :=
    { channel := { id := 1, type := 1, key := "key-1", headerOverride := [("X-A", .str "a")],
                   paramOverride := [("temperature", .num "0")] } }
  body := ()

def sampleSetHeader : OverridePass Unit where
  pick :=
    { channel := { id := 2, type := 1, key := "key-2",
                   paramOverride := [("operations", .arr [.obj [("mode", .str "set_header"),
                     ("path", .str "X-Token"), ("value", .str "secret")]])] } }
  body := ()

def sampleHeader : OverridePass Unit where
  pick := { channel := { id := 3, type := 1, key := "key-3", headerOverride :=
    [("X-B", .str "b")] } }
  body := ()

theorem header_override_isolated_iff_sample :
    ((run (step sampleOverrideEnv) {} [sampleHeader]).attempt sampleOverrideEnv sampleSetHeader).2 =
      (attempt sampleOverrideEnv {} sampleSetHeader).2 :=
  (header_override_isolated_iff sampleOverrideEnv [sampleHeader] (by decide)
    (by decide)).2 (by decide +kernel) sampleSetHeader (by decide +kernel)

/-- The third channel is sent with the headers of the first or the second. -/
theorem header_override_kept :
    ((run (step sampleOverrideEnv) {} [sampleTempered]).attempt sampleOverrideEnv
        sampleHeader).2.map (fun m => (m.lookup "x-a", m.lookup "x-b")) = some (some "a", none) ∧
    ((run (step sampleOverrideEnv) {} [sampleSetHeader]).attempt sampleOverrideEnv
        sampleHeader).2.map (fun m => (m.lookup "x-token", m.lookup "x-b")) =
      some (some "secret", none) ∧
    (attempt sampleOverrideEnv {} sampleHeader).2.map
        (fun m => (m.lookup "x-a", m.lookup "x-token", m.lookup "x-b")) =
      some (none, none, some "b") := by
  decide

end OverrideRequest

end AggreApi
