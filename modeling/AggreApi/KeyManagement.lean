import AggreApi.ChannelTables

/-!
# Managing the keys of a channel

The actions of `ManageMultiKeys` that write, and `UpdateChannel`. Statuses, reasons and times of the
keys are recorded by index; the key list is a text, with a line for each key or a JSON array.
-/

namespace AggreApi

/-- What the handlers use from outside. -/
structure KeyEnv where
  unmarshalRaw : String → Option (List String)
  unmarshalArray : String → Except String (List Json)
  marshal : Json → String
  validateChannel : ChannelPatch → Option String

/-- The answer of a handler. -/
structure KeyReply where
  success : Bool
  message : String
  data : Option ℕ := none
  deriving DecidableEq, Repr

def ChannelRow.toPatch (c : ChannelRow) : ChannelPatch :=
  { id := c.id
    type := c.type
    key := c.key
    openAIOrganization := c.openAIOrganization
    status := c.status
    name := c.name
    weight := c.weight
    createdTime := c.createdTime
    baseURL := c.baseURL
    other := c.other
    models := c.models
    group := c.group
    modelMapping := c.modelMapping
    statusCodeMapping := c.statusCodeMapping
    priority := c.priority
    autoBan := c.autoBan
    otherInfo := some (c.statusReason, c.statusTime)
    setting := some c.setting
    paramOverride := some c.paramOverride
    headerOverride := some c.headerOverride
    channelInfo := c.channelInfo
    otherSettings := some c.otherSettings
    tag := c.tag }

structure KeptKeys where
  keys : List String := []
  statusList : AList fun _ : ℕ => ChannelStatus := ∅
  disabledTime : AList fun _ : ℕ => ℤ := ∅
  disabledReason : AList fun _ : ℕ => String := ∅

def copyEntry {β : Type} (old new : AList fun _ : ℕ => β) (i j : ℕ) : AList fun _ : ℕ => β :=
  match old.lookup i with
  | some v => new.insert j v
  | none => new

variable (info : ChannelInfo)

namespace ChannelInfo

/-- The loop of the actions that delete keys: the keys to keep, with their entries re-indexed. -/
def keepKeys (info : ChannelInfo) (keeps details : ℕ → Bool) : List (String × ℕ) → KeptKeys →
    KeptKeys
  | [], kept => kept
  | (key, i) :: rest, kept =>
    if keeps i then
      let j := kept.keys.length
      info.keepKeys keeps details rest
        { keys := kept.keys ++ [key]
          statusList :=
            if info.keyStatus i ≠ .enabled then
              copyEntry info.multiKeyStatusList kept.statusList i j
            else kept.statusList
          disabledTime :=
            if details i then copyEntry info.multiKeyDisabledTime kept.disabledTime i j
            else kept.disabledTime
          disabledReason :=
            if details i then copyEntry info.multiKeyDisabledReason kept.disabledReason i j
            else kept.disabledReason }
    else info.keepKeys keeps details rest kept

def withKept (kept : KeptKeys) : ChannelInfo :=
  { info with
    multiKeySize := kept.keys.length
    multiKeyStatusList := kept.statusList
    multiKeyDisabledTime := kept.disabledTime
    multiKeyDisabledReason := kept.disabledReason }

def disableKey (i : ℕ) : ChannelInfo :=
  { info with multiKeyStatusList := info.multiKeyStatusList.insert i .manuallyDisabled }

def enableKey (i : ℕ) : ChannelInfo :=
  { info with
    multiKeyStatusList := info.multiKeyStatusList.erase i
    multiKeyDisabledTime := info.multiKeyDisabledTime.erase i
    multiKeyDisabledReason := info.multiKeyDisabledReason.erase i }

def enableAllKeys : ChannelInfo :=
  { info with
    multiKeyStatusList := ∅
    multiKeyDisabledTime := ∅
    multiKeyDisabledReason := ∅ }

def disableKeys : List ℕ → ChannelInfo → ChannelInfo × ℕ
  | [], info => (info, 0)
  | i :: is, info =>
    if info.keyStatus i = .enabled then
      let r := disableKeys is (info.disableKey i)
      (r.1, r.2 + 1)
    else disableKeys is info

end ChannelInfo

inductive KeyAction where
  | disableKey (keyIndex : Option ℤ)
  | enableKey (keyIndex : Option ℤ)
  | enableAllKeys
  | disableAllKeys
  | deleteKey (keyIndex : Option ℤ)
  | deleteDisabledKeys
  | unsupported

def checkedIndex (missing : String) (size : ℕ) : Option ℤ → Except String ℕ
  | none => .error missing
  | some i => if i < 0 ∨ i ≥ size then .error "密钥索引超出范围" else .ok i.toNat

/-- The key text, the info, the message and the data of an action, or its error. -/
def KeyAction.apply (unmarshalRaw : String → Option (List String)) (row : ChannelRow) :
    KeyAction → Except String (String × ChannelInfo × String × Option ℕ)
  | .disableKey keyIndex => do
    let i ← checkedIndex "未指定要禁用的密钥索引" row.channelInfo.multiKeySize keyIndex
    return (row.key, row.channelInfo.disableKey i, "密钥已禁用", none)
  | .enableKey keyIndex => do
    let i ← checkedIndex "未指定要启用的密钥索引" row.channelInfo.multiKeySize keyIndex
    return (row.key, row.channelInfo.enableKey i, "密钥已启用", none)
  | .enableAllKeys =>
    let enabledCount := row.channelInfo.multiKeyStatusList.entries.length
    .ok (row.key, row.channelInfo.enableAllKeys, s!"已启用 {enabledCount} 个密钥", none)
  | .disableAllKeys =>
    let (info, disabledCount) :=
      ChannelInfo.disableKeys (List.range row.channelInfo.multiKeySize) row.channelInfo
    if disabledCount = 0 then .error "没有可禁用的密钥"
    else .ok (row.key, info, s!"已禁用 {disabledCount} 个密钥", none)
  | .deleteKey keyIndex => do
    let i ← checkedIndex "未指定要删除的密钥索引" row.channelInfo.multiKeySize keyIndex
    let kept := row.channelInfo.keepKeys (· ≠ i) (fun _ => true)
      (row.getKeys unmarshalRaw).zipIdx {}
    if kept.keys.length = 0 then .error "不能删除最后一个密钥"
    else return ("\n".intercalate kept.keys, row.channelInfo.withKept kept, "密钥已删除", none)
  | .deleteDisabledKeys =>
    let keys := row.getKeys unmarshalRaw
    let kept := row.channelInfo.keepKeys (fun i => row.channelInfo.keyStatus i ≠ .autoDisabled)
      (fun i => row.channelInfo.keyStatus i ≠ .enabled) keys.zipIdx {}
    let deletedCount :=
      keys.zipIdx.countP fun k => row.channelInfo.keyStatus k.2 = .autoDisabled
    if deletedCount = 0 then .error "没有需要删除的自动禁用密钥"
    else .ok ("\n".intercalate kept.keys, row.channelInfo.withKept kept,
      s!"已删除 {deletedCount} 个自动禁用的密钥", some deletedCount)
  | .unsupported => .error "不支持的操作"

variable (env : KeyEnv)

namespace ChannelDb

def manageMultiKeys (s : ChannelDb) (channelId : ℕ) (action : KeyAction) : ChannelDb × KeyReply :=
  match s.channels.find channelId with
  | none => (s, ⟨false, "渠道不存在", none⟩)
  | some row =>
    if !row.channelInfo.isMultiKey then (s, ⟨false, "该渠道不是多密钥模式", none⟩)
    else
      match action.apply env.unmarshalRaw row with
      | .error e => (s, ⟨false, e, none⟩)
      | .ok (key, channelInfo, message, data) =>
        (s.update env.unmarshalRaw { row.toPatch with key, channelInfo }, ⟨true, message, data⟩)

end ChannelDb

structure PatchChannel extends ChannelPatch where
  multiKeyMode : Option String := none
  keyMode : Option String := none

/-- `VertexKeyType` of the settings in a request. -/
def ChannelPatch.vertexKeyType (p : ChannelPatch) : String :=
  match p.otherSettings with
  | some (.obj members) =>
    match members.lookup "vertex_key_type" with
    | some (.str t) => t
    | _ => ""
  | _ => ""

def channelTypeVertexAi : ℕ := 41

def getVertexArrayKeys (keys : String) : Except String (List String) :=
  if keys = "" then .ok []
  else
    match env.unmarshalArray keys with
    | .error e => .error
        (s!"批量添加 Vertex AI 必须使用标准的JsonArray格式，例如[\x7bkey1\x7d, \x7bkey2\x7d...]，请检查输入: " ++ e)
    | .ok keyArray =>
      let texts := keyArray.map fun
        | .str v => trimSpace v
        | v => env.marshal v
      let cleanKeys := texts.filter (· ≠ "")
      if cleanKeys = [] then .error "批量添加 Vertex AI 的 keys 不能为空" else .ok cleanKeys

def PatchChannel.newKeys (p : PatchChannel) : Except String (List String) :=
  if p.type = channelTypeVertexAi ∧ p.vertexKeyType ≠ "api_key" then
    if startsWith "[" (trimSpace p.key) then getVertexArrayKeys env p.key else .ok [p.key]
  else .ok (((splitChar '\n' p.key).map trimSpace).filter (· ≠ ""))

def existingKeys (unmarshalRaw : String → Option (List String)) (key : String) : List String :=
  if startsWith "[" (trimSpace key) then (unmarshalRaw (trimSpace key)).getD []
  else splitChar '\n' (trimChar '\n' key)

def freshKeys : List String → List String → List String
  | _, [] => []
  | seen, key :: keys =>
    let normalized := trimSpace key
    if normalized = "" ∨ normalized ∈ seen then freshKeys seen keys
    else normalized :: freshKeys (normalized :: seen) keys

def PatchChannel.appendedKey (p : PatchChannel) (origin : String) : Except String String :=
  if origin = "" then .ok p.key
  else
    match p.newKeys env with
    | .error e => .error ("追加密钥解析失败: " ++ e)
    | .ok newKeys =>
      let existing := existingKeys env.unmarshalRaw origin
      .ok ("\n".intercalate (existing ++ freshKeys (existing.map trimSpace) newKeys))

def MultiKeyMode.ofString : String → MultiKeyMode
  | "random" => .random
  | "polling" => .polling
  | _ => .other

namespace ChannelDb

def updateChannel (s : ChannelDb) (p : PatchChannel) : ChannelDb × KeyReply :=
  match env.validateChannel p.toChannelPatch with
  | some e => (s, ⟨false, e, none⟩)
  | none =>
    match s.channels.find p.id with
    | none => (s, ⟨false, "record not found", none⟩)
    | some origin =>
      let mode :=
        match p.multiKeyMode with
        | some m => if m = "" then origin.channelInfo.multiKeyMode else .ofString m
        | none => origin.channelInfo.multiKeyMode
      let channelInfo := { origin.channelInfo with multiKeyMode := mode }
      let key :=
        if p.keyMode = some "append" ∧ channelInfo.isMultiKey then p.appendedKey env origin.key
        else .ok p.key
      match key with
      | .error e => (s, ⟨false, e, none⟩)
      | .ok key =>
        (s.update env.unmarshalRaw { p.toChannelPatch with key, channelInfo }, ⟨true, "", none⟩)

end ChannelDb

end AggreApi
