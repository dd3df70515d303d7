import AggreApi.Channel
import AggreApi.Billing

/-!
# The channel tables and their memory cache

The `channels` and `abilities` tables and the index from groups and models to the ids of enabled
channels: `InitChannelCache` rebuilds it, `UpdateChannelStatus` maintains it in place, and
`GetRandomSatisfiedChannel` picks from it, or from `abilities` where the cache is off.
-/

namespace AggreApi

structure Ability where
  group : String
  model : String
  channelId : ℕ
  enabled : Bool := true
  priority : ℤ := 0
  weight : ℕ := 0
  deriving DecidableEq, Repr

/-- `group2model2channels`; a group or a model without an entry reads as the empty list. -/
abbrev ChannelIndex := String → String → List ℕ

namespace ChannelIndex

def empty : ChannelIndex := fun _ _ => []

def add (idx : ChannelIndex) (group model : String) (id : ℕ) : ChannelIndex :=
  fun g m => if g = group ∧ m = model then idx g m ++ [id] else idx g m

def remove (idx : ChannelIndex) (id : ℕ) : ChannelIndex := fun g m => (idx g m).erase id

/-- The entries of one channel: one for each pair of a group and a model its strings name. -/
def addChannel (idx : ChannelIndex) (ch : Channel) : ChannelIndex :=
  (splitChar ',' ch.group).foldl
    (fun idx g => (splitChar ',' ch.models).foldl (fun idx m => idx.add g m ch.id) idx) idx

end ChannelIndex

structure ChannelStore where
  channels : Table Channel.id
  abilities : List Ability
  memoryCacheEnabled : Bool := true
  group2model2channels : ChannelIndex := .empty
  channelsIDM : Table Channel.id := ⟨[], List.nodup_nil⟩

namespace ChannelStore

variable (unmarshalRaw : String → Option (List String))

def priorityOf (channels : Table Channel.id) (id : ℕ) : ℤ :=
  ((channels.find id).map Channel.getPriority).getD 0

/-- A multi-key channel caches its keys, and one that polls keeps the index of its old copy. -/
def loadChannel (old : Table Channel.id) (ch : Channel) : Channel :=
  if ch.channelInfo.isMultiKey then
    let keyed := { ch with keys := ch.getKeys unmarshalRaw }
    match old.find ch.id with
    | some o =>
      if ch.channelInfo.multiKeyMode = .polling ∧ o.channelInfo.isMultiKey ∧
          o.channelInfo.multiKeyMode = .polling then
        { keyed with channelInfo :=
          { ch.channelInfo with multiKeyPollingIndex := o.channelInfo.multiKeyPollingIndex } }
      else keyed
    | none => keyed
  else ch

theorem loadChannel_id (old : Table Channel.id) (ch : Channel) :
    (loadChannel unmarshalRaw old ch).id = ch.id := by
  unfold loadChannel
  split
  · split
    · split_ifs <;> rfl
    · rfl
  · rfl

def buildIndex (channels : List Channel) : ChannelIndex :=
  (channels.filter (·.status = .enabled)).foldl ChannelIndex.addChannel .empty

def groupsKnown (s : ChannelStore) : Bool :=
  (s.channels.rows.filter (·.status = .enabled)).all fun ch =>
    (splitChar ',' ch.group).all fun g => s.abilities.any (·.group = g)

/-- `InitChannelCache`; a channel in a group without abilities writes to a nil map and panics. -/
def initChannelCache (s : ChannelStore) : ChannelStore :=
  if !s.memoryCacheEnabled then s
  else if !s.groupsKnown then s
  else { s with
    group2model2channels := fun g m =>
      (buildIndex s.channels.rows g m).insertionSort
        fun a b => priorityOf s.channels a ≥ priorityOf s.channels b
    channelsIDM := s.channels.map (loadChannel unmarshalRaw s.channelsIDM)
      (loadChannel_id unmarshalRaw s.channelsIDM) }

def cacheUpdateChannelStatus (s : ChannelStore) (id : ℕ) (status : ChannelStatus) :
    ChannelStore :=
  if !s.memoryCacheEnabled then s
  else { s with
    channelsIDM := s.channelsIDM.map
      (fun ch => if ch.id = id then { ch with status } else ch) (by intro ch; split <;> rfl)
    group2model2channels :=
      if status = .enabled then s.group2model2channels else s.group2model2channels.remove id }

def keyIndex (keys : List String) (usingKey : String) : ℕ :=
  if usingKey ∈ keys then keys.idxOf usingKey else 0

def updateKeyStatus (info : ChannelInfo) (i : ℕ) (status : ChannelStatus) (reason : String)
    (now : ℤ) : ChannelInfo :=
  if status = .enabled then
    { info with multiKeyStatusList := info.multiKeyStatusList.erase i }
  else
    { info with
      multiKeyStatusList := info.multiKeyStatusList.insert i status
      multiKeyDisabledReason := info.multiKeyDisabledReason.insert i reason
      multiKeyDisabledTime := info.multiKeyDisabledTime.insert i now }

def handlerMultiKeyUpdate (ch : Channel) (usingKey : String) (status : ChannelStatus)
    (reason : String) (now : ℤ) : Channel :=
  let keys := ch.getKeys unmarshalRaw
  if keys = [] then { ch with status }
  else
    let info := updateKeyStatus ch.channelInfo (keyIndex keys usingKey) status reason now
    if info.multiKeySize ≤ info.multiKeyStatusList.entries.length then
      { ch with
        channelInfo := info
        status := .autoDisabled
        statusReason := some "All keys are disabled"
        statusTime := some now }
    else { ch with channelInfo := info }

theorem handlerMultiKeyUpdate_id (ch : Channel) (usingKey : String) (status : ChannelStatus)
    (reason : String) (now : ℤ) :
    (handlerMultiKeyUpdate unmarshalRaw ch usingKey status reason now).id = ch.id := by
  simp only [handlerMultiKeyUpdate]
  split
  · rfl
  · split <;> rfl

def updateAbilityStatus (s : ChannelStore) (id : ℕ) (enabled : Bool) : ChannelStore :=
  { s with abilities := s.abilities.map fun a => if a.channelId = id then
    { a with enabled } else a }

def updatedRow (row : Channel) (usingKey : String) (status : ChannelStatus) (reason : String)
    (now : ℤ) : Channel :=
  if row.channelInfo.isMultiKey then
    handlerMultiKeyUpdate unmarshalRaw row usingKey status reason now
  else { row with status, statusReason := some reason, statusTime := some now }

/-- The second half of `UpdateChannelStatus`, on the tables. -/
def updateRowStatus (s : ChannelStore) (id : ℕ) (usingKey : String) (status : ChannelStatus)
    (reason : String) (now : ℤ) : ChannelStore × Bool :=
  match s.channels.find id with
  | none => (s, false)
  | some row =>
    if row.status = status then (s, false)
    else
      let saved := updatedRow unmarshalRaw row usingKey status reason now
      let s' := { s with channels := s.channels.put saved }
      if row.status ≠ saved.status then (s'.updateAbilityStatus id (status = .enabled), true)
      else (s', true)

/-- The first half of `UpdateChannelStatus`, on the cache; `none` where it returns early. -/
def updateCachedStatus (s : ChannelStore) (id : ℕ) (usingKey : String) (status : ChannelStatus)
    (reason : String) (now : ℤ) : Option ChannelStore :=
  if !s.memoryCacheEnabled then some s
  else match s.channelsIDM.find id with
    | none => none
    | some ch =>
      if ch.channelInfo.isMultiKey then
        let updated := handlerMultiKeyUpdate unmarshalRaw ch usingKey status reason now
        some { s with channelsIDM := s.channelsIDM.put updated }
      else if ch.status = status then none
      else some (s.cacheUpdateChannelStatus id status)

def updateChannelStatus (s : ChannelStore) (id : ℕ) (usingKey : String) (status : ChannelStatus)
    (reason : String) (now : ℤ) : ChannelStore × Bool :=
  match s.updateCachedStatus unmarshalRaw id usingKey status reason now with
  | none => (s, false)
  | some s' => s'.updateRowStatus unmarshalRaw id usingKey status reason now

inductive Event where
  | initChannelCache
  | updateChannelStatus (id : ℕ) (usingKey : String) (status : ChannelStatus) (reason : String)
    (now : ℤ)

def step (s : ChannelStore) : Event → ChannelStore
  | .initChannelCache => s.initChannelCache unmarshalRaw
  | .updateChannelStatus id usingKey status reason now =>
    (s.updateChannelStatus unmarshalRaw id usingKey status reason now).1

def start (channels : Table Channel.id) (abilities : List Ability) : ChannelStore :=
  { channels, abilities }

end ChannelStore

def handleThinkingBudgetModel (name start wildcard : String) : String :=
  if startsWith start name && contains name "-thinking-" then wildcard else name

def formatMatchingModelName (name : String) : String :=
  let name :=
    if startsWith "gemini-2.5-flash-lite" name then
      handleThinkingBudgetModel name "gemini-2.5-flash-lite" "gemini-2.5-flash-lite-thinking-*"
    else if startsWith "gemini-2.5-flash" name then
      handleThinkingBudgetModel name "gemini-2.5-flash" "gemini-2.5-flash-thinking-*"
    else if startsWith "gemini-2.5-pro" name then
      handleThinkingBudgetModel name "gemini-2.5-pro" "gemini-2.5-pro-thinking-*"
    else name
  let name := if startsWith "gpt-4-gizmo" name then "gpt-4-gizmo-*" else name
  if startsWith "gpt-4o-gizmo" name then "gpt-4o-gizmo-*" else name

def priorityLevels (priorities : List ℤ) : List ℤ := priorities.dedup.insertionSort (· ≥ ·)

def levelAt (levels : List ℤ) (retry : ℕ) : ℤ := levels.getD (min retry (levels.length - 1)) 0

abbrev Lookup := Option Channel × Option String

/-- The walk that spends a drawn weight and stops at the element that takes it below `slack`. -/
def walkWeights {α : Type} (weight : α → ℕ) (slack : ℕ) : ℕ → List α → Option α
  | _, [] => none
  | r, a :: rest =>
    if r < weight a + slack then some a else walkWeights weight slack (r - weight a) rest

namespace ChannelStore

/-- The weighted choice among channels of one priority; small weights are scaled up. -/
def chooseChannel (targets : List Channel) (draw : ℕ) : Option Channel :=
  let sumWeight := (targets.map Channel.getWeight).sum
  if sumWeight = 0 then
    walkWeights (fun ch => ch.getWeight * 1 + 100) 0 (draw % (targets.length * 100 * 1)) targets
  else if sumWeight / targets.length < 10 then
    walkWeights (fun ch => ch.getWeight * 100 + 0) 0 (draw % (sumWeight * 100)) targets
  else walkWeights (fun ch => ch.getWeight * 1 + 0) 0 (draw % (sumWeight * 1)) targets

def missingChannel (id : ℕ) : String := s!"数据库一致性错误，渠道# {id} 不存在，请联系管理员修复"

def cachedChannels (s : ChannelStore) : List ℕ → Except String (List Channel)
  | [] => .ok []
  | id :: ids =>
    match s.channelsIDM.find id with
    | none => .error (missingChannel id)
    | some ch =>
      match s.cachedChannels ids with
      | .error e => .error e
      | .ok chs => .ok (ch :: chs)

def indexed (s : ChannelStore) (group model : String) : List ℕ :=
  if s.group2model2channels group model = [] then
    s.group2model2channels group (formatMatchingModelName model)
  else s.group2model2channels group model

/-- `GetRandomSatisfiedChannel` on the memory cache. `draw` stands for the random number. -/
def getCachedChannel (s : ChannelStore) (group model : String) (retry draw : ℕ) : Lookup :=
  match s.indexed group model with
  | [] => (none, none)
  | [id] =>
    match s.channelsIDM.find id with
    | some ch => (some ch, none)
    | none => (none, some (missingChannel id))
  | ids =>
    match s.cachedChannels ids with
    | .error e => (none, some e)
    | .ok chs =>
      let target := levelAt (priorityLevels (chs.map Channel.getPriority)) retry
      match chs.filter (·.getPriority = target) with
      | [] => (none, some
          s!"no channel found, group: {group}, model: {model}, priority: {target}")
      | ch :: rest =>
        match chooseChannel (ch :: rest) draw with
        | some ch => (some ch, none)
        | none => (none, some "channel not found")

def enabledAbilities (s : ChannelStore) (group model : String) : List Ability :=
  s.abilities.filter fun a => a.group = group ∧ a.model = model ∧ a.enabled

/-- `getChannelQuery`: the abilities of the highest priority, or on a retry of the one
`getPriority` gives. -/
def getChannelQuery (s : ChannelStore) (group model : String) (retry : ℕ) :
    Except String (List Ability) :=
  let rows := s.enabledAbilities group model
  if retry = 0 then .ok (rows.filter fun a => some a.priority = (rows.map Ability.priority).max?)
  else if rows = [] then .error "数据库一致性被破坏"
  else
    let priority := levelAt (priorityLevels (rows.map Ability.priority)) retry
    .ok (rows.filter (·.priority = priority))

/-- `GetChannel` on the tables. Where the row of the ability is gone, a channel with only its id
is returned beside the error. -/
def getChannel (s : ChannelStore) (group model : String) (retry draw : ℕ) : Lookup :=
  match s.getChannelQuery group model retry with
  | .error e => (none, some e)
  | .ok rows =>
    match rows.insertionSort fun a b => a.weight ≥ b.weight with
    | [] => (none, none)
    | a :: rest =>
      let weightSum := ((a :: rest).map fun b => b.weight + 10).sum
      let id :=
        match walkWeights (fun b => b.weight + 10) 1 (draw % weightSum) (a :: rest) with
        | some b => b.channelId
        | none => 0
      match s.channels.find id with
      | some ch => (some ch, none)
      | none => (some { id }, some "record not found")

def getRandomSatisfiedChannel (s : ChannelStore) (group model : String) (retry draw : ℕ) :
    Lookup :=
  if !s.memoryCacheEnabled then s.getChannel group model retry draw
  else s.getCachedChannel group model retry draw

end ChannelStore

end AggreApi
