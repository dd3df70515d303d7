import AggreApi.ChannelCache

/-!
# The writes to the channel tables

`channels` and `abilities`, and every administrative operation that writes them, as its statements.
An update with a struct skips the columns that are zero in it, and a created row has its column
defaults filled in.
-/

namespace AggreApi

structure ChannelRow extends Channel where
  tag : Option String := none

structure AbilityRow extends Ability where
  tag : Option String := none
  deriving DecidableEq, Repr

def AbilityRow.key (a : AbilityRow) : String × String × ℕ := (a.group, a.model, a.channelId)

namespace ChannelInfo

def keyStatus (info : ChannelInfo) (i : ℕ) : ChannelStatus :=
  (info.multiKeyStatusList.lookup i).getD .enabled

def isZero (i : ChannelInfo) : Bool :=
  !i.isMultiKey && i.multiKeySize = 0 && i.multiKeyStatusList.entries.isEmpty &&
    i.multiKeyDisabledReason.entries.isEmpty && i.multiKeyDisabledTime.entries.isEmpty &&
    i.multiKeyPollingIndex = 0 && i.multiKeyMode = .other

def resize (i : ChannelInfo) (size : ℕ) : ChannelInfo :=
  { i with
    multiKeySize := size
    multiKeyStatusList := i.multiKeyStatusList.keys.foldl
      (fun m idx => if size ≤ idx then m.erase idx else m) i.multiKeyStatusList }

end ChannelInfo

structure ChannelPatch where
  id : ℕ
  type : ℕ := 0
  key : String := ""
  openAIOrganization : Option String := none
  status : ChannelStatus := .unknown
  name : String := ""
  weight : Option ℕ := none
  createdTime : ℤ := 0
  baseURL : Option String := none
  other : String := ""
  models : String := ""
  group : String := ""
  modelMapping : Option String := none
  statusCodeMapping : Option String := none
  priority : Option ℤ := none
  autoBan : Option ℤ := none
  otherInfo : Option (Option String × Option ℤ) := none
  setting : Option Json := none
  paramOverride : Option JsonObject := none
  headerOverride : Option JsonObject := none
  channelInfo : ChannelInfo := {}
  otherSettings : Option Json := none
  tag : Option String := none

/-- The key list as `Channel.Update` counts it: an empty JSON array falls back to the lines. -/
def countedKeys (unmarshalRaw : String → Option (List String)) (keyStr : String) : List String :=
  if keyStr = "" then []
  else
    let trimmed := trimSpace keyStr
    let parsed := if startsWith "[" trimmed then (unmarshalRaw trimmed).getD [] else []
    if parsed = [] then splitChar '\n' (trimChar '\n' keyStr) else parsed

namespace ChannelRow

/-- A row as `Create` stores it, and leaves it in the struct. -/
def withDefaults (c : ChannelRow) : ChannelRow :=
  { c with
    status := if c.status = .unknown then .enabled else c.status
    group := if c.group = "" then "default" else c.group
    weight := some (c.weight.getD 0)
    baseURL := some (c.baseURL.getD "")
    statusCodeMapping := some (c.statusCodeMapping.getD "")
    priority := some (c.priority.getD 0)
    autoBan := some (c.autoBan.getD 1) }

def updates (c : ChannelRow) (p : ChannelPatch) : ChannelRow :=
  { c with
    type := if p.type = 0 then c.type else p.type
    key := if p.key = "" then c.key else p.key
    openAIOrganization := p.openAIOrganization.or c.openAIOrganization
    status := if p.status = .unknown then c.status else p.status
    name := if p.name = "" then c.name else p.name
    weight := p.weight.or c.weight
    createdTime := if p.createdTime = 0 then c.createdTime else p.createdTime
    baseURL := p.baseURL.or c.baseURL
    other := if p.other = "" then c.other else p.other
    models := if p.models = "" then c.models else p.models
    group := if p.group = "" then c.group else p.group
    modelMapping := p.modelMapping.or c.modelMapping
    statusCodeMapping := p.statusCodeMapping.or c.statusCodeMapping
    priority := p.priority.or c.priority
    autoBan := p.autoBan.or c.autoBan
    statusReason := (p.otherInfo.getD (c.statusReason, c.statusTime)).1
    statusTime := (p.otherInfo.getD (c.statusReason, c.statusTime)).2
    setting := p.setting.getD c.setting
    paramOverride := p.paramOverride.getD c.paramOverride
    headerOverride := p.headerOverride.getD c.headerOverride
    channelInfo := if p.channelInfo.isZero then c.channelInfo else p.channelInfo
    otherSettings := p.otherSettings.getD c.otherSettings
    tag := p.tag.or c.tag }

/-- The pairs of a group and a model, in the order of the loops that write the abilities. -/
def pairs (c : ChannelRow) : List (String × String) :=
  (splitChar ',' c.models).flatMap fun m => (splitChar ',' c.group).map fun g => (g, m)

/-- The key `abilitySet` knows a pair by. -/
def setKey (p : String × String) : String := p.1 ++ "|" ++ p.2

def distinctPairs : List String → List (String × String) → List (String × String)
  | _, [] => []
  | seen, p :: ps =>
    if setKey p ∈ seen then distinctPairs seen ps
    else p :: distinctPairs (setKey p :: seen) ps

def ability (c : ChannelRow) (p : String × String) : AbilityRow :=
  { group := p.1
    model := p.2
    channelId := c.id
    enabled := c.status = .enabled
    priority := c.getPriority
    weight := c.getWeight
    tag := c.tag }

def abilities (c : ChannelRow) : List AbilityRow := (distinctPairs [] c.pairs).map c.ability

end ChannelRow

namespace ChannelPatch

def toRow (p : ChannelPatch) : ChannelRow :=
  ({ id := p.id, status := .unknown, group := "" } : ChannelRow).updates p

/-- `Channel.Update` counts the keys of a multi-key channel anew, in the struct or in the row. -/
def recount (unmarshalRaw : String → Option (List String)) (p : ChannelPatch)
    (existing : Option ChannelRow) : ChannelPatch :=
  if p.channelInfo.isMultiKey then
    let keyStr := if p.key ≠ "" then p.key else (existing.map (·.key)).getD ""
    { p with channelInfo := p.channelInfo.resize (countedKeys unmarshalRaw keyStr).length }
  else p

end ChannelPatch

/-- The two tables, and the id the next channel gets. Ids are not used twice. -/
structure ChannelDb where
  channels : Table fun c : ChannelRow => c.id
  abilities : Table AbilityRow.key
  nextId : ℕ := 1

namespace ChannelDb

variable (unmarshalRaw : String → Option (List String))

def empty : ChannelDb := { channels := ⟨[], List.nodup_nil⟩, abilities := ⟨[], List.nodup_nil⟩ }

/-! ## Statements -/

/-- `Create`: a row without an id gets the next one. There is no row where the id is taken. -/
def createRow (s : ChannelDb) (c : ChannelRow) : Option (ChannelDb × ChannelRow) :=
  let row := { c.withDefaults with id := if c.id = 0 then s.nextId else c.id }
  if s.channels.find row.id = none then
    some ({ s with channels := s.channels.insert row, nextId := max s.nextId (row.id + 1) }, row)
  else none

def createRows : ChannelDb → List ChannelRow → Option (ChannelDb × List ChannelRow)
  | s, [] => some (s, [])
  | s, c :: cs => do
    let (s, row) ← s.createRow c
    let (s, rows) ← createRows s cs
    return (s, row :: rows)

def addAbilities (s : ChannelDb) (c : ChannelRow) : ChannelDb :=
  { s with abilities := s.abilities.insertAll c.abilities }

def deleteAbilities (s : ChannelDb) (ids : List ℕ) : ChannelDb :=
  { s with abilities := s.abilities.filter (·.channelId ∉ ids) }

def deleteRows (s : ChannelDb) (ids : List ℕ) : ChannelDb :=
  { s with channels := s.channels.filter (·.id ∉ ids) }

def updateAbilities (s : ChannelDb) (c : ChannelRow) : ChannelDb :=
  (s.deleteAbilities [c.id]).addAbilities c

def updateRows (s : ChannelDb) (test : ChannelRow → Bool) (p : ChannelPatch) : ChannelDb :=
  { s with
    channels := s.channels.map (fun c => if test c then c.updates p else c)
      (by intro c; split <;> rfl) }

def truncateAbilities (s : ChannelDb) : ChannelDb := { s with abilities := ⟨[], List.nodup_nil⟩ }

/-- One chunk of `FixAbility`. -/
def fixChunk (s : ChannelDb) (chunk : List ChannelRow) : ChannelDb :=
  chunk.foldl addAbilities (s.deleteAbilities (chunk.map (·.id)))

def mapAbilities (s : ChannelDb) (test : AbilityRow → Bool) (f : AbilityRow → AbilityRow)
    (hf : ∀ a, (f a).key = a.key) : ChannelDb :=
  { s with
    abilities := s.abilities.map (fun a => if test a then f a else a)
      (by intro a; split; exacts [hf a, rfl]) }

/-! ## Operations -/

def insert (s : ChannelDb) (c : ChannelRow) : ChannelDb :=
  match s.createRow c with
  | none => s
  | some (s, row) => s.addAbilities row

def insertChunks : ChannelDb → List (List ChannelRow) → Option ChannelDb
  | s, [] => some s
  | s, chunk :: chunks => do
    let (s, rows) ← s.createRows chunk
    insertChunks (rows.foldl addAbilities s) chunks

def batchInsertChannels (s : ChannelDb) (cs : List ChannelRow) : ChannelDb :=
  (s.insertChunks (cs.toChunks 50)).getD s

/-- `Channel.Update`. Where there is no row, the struct stays as it was given. -/
def update (s : ChannelDb) (p : ChannelPatch) : ChannelDb :=
  let p := p.recount unmarshalRaw (s.channels.find p.id)
  let s := s.updateRows (·.id = p.id) p
  s.updateAbilities ((s.channels.find p.id).getD p.toRow)

def delete (s : ChannelDb) (id : ℕ) : ChannelDb := (s.deleteRows [id]).deleteAbilities [id]

/-- `BatchDeleteChannels`, over its chunks. -/
def batchDeleteChannels (s : ChannelDb) (ids : List ℕ) : ChannelDb :=
  (ids.toChunks 200).foldl (fun s chunk => (s.deleteRows chunk).deleteAbilities chunk) s

def updateAbilityStatus (s : ChannelDb) (id : ℕ) (enabled : Bool) : ChannelDb :=
  s.mapAbilities (·.channelId = id) (fun a => { a with enabled }) fun _ => rfl

def updateAbilityStatusByTag (s : ChannelDb) (tag : String) (enabled : Bool) : ChannelDb :=
  s.mapAbilities (·.tag = some tag) (fun a => { a with enabled }) fun _ => rfl

/-- `UpdateChannelStatus` on the tables, where the memory cache lets it come that far. -/
def updateChannelStatus (s : ChannelDb) (id : ℕ) (usingKey : String) (status : ChannelStatus)
    (reason : String) (now : ℤ) : ChannelDb :=
  match s.channels.find id with
  | none => s
  | some row =>
    if row.status = status then s
    else
      let saved := ChannelStore.updatedRow unmarshalRaw row.toChannel usingKey status reason now
      let s := { s with channels := s.channels.put { row with toChannel := saved } }
      if row.status ≠ saved.status then s.updateAbilityStatus id (status = .enabled) else s

def enableChannelByTag (s : ChannelDb) (tag : String) : ChannelDb :=
  (s.updateRows (·.tag = some tag) { id := 0, status := .enabled }).updateAbilityStatusByTag
    tag true

def disableChannelByTag (s : ChannelDb) (tag : String) : ChannelDb :=
  (s.updateRows (·.tag = some tag)
    { id := 0, status := .manuallyDisabled }).updateAbilityStatusByTag tag false

structure TagEdit where
  newTag : Option String := none
  modelMapping : Option String := none
  models : Option String := none
  group : Option String := none
  priority : Option ℤ := none
  weight : Option ℕ := none
  paramOverride : Option JsonObject := none
  headerOverride : Option JsonObject := none

namespace TagEdit

/-- `updateData`. -/
def patch (e : TagEdit) (tag : String) : ChannelPatch :=
  { id := 0
    tag := if e.newTag = some tag then none else e.newTag
    modelMapping := if e.modelMapping = some "" then none else e.modelMapping
    models := e.models.getD ""
    group := e.group.getD ""
    priority := e.priority
    weight := e.weight
    paramOverride := e.paramOverride
    headerOverride := e.headerOverride }

/-- `shouldReCreateAbilities`. -/
def recreates (e : TagEdit) : Bool := e.models.getD "" ≠ "" || e.group.getD "" ≠ ""

end TagEdit

/-- `UpdateAbilityByTag`; a weight of zero counts as none given. -/
def updateAbilityByTag (s : ChannelDb) (tag : String) (newTag : Option String)
    (priority : Option ℤ) (weight : Option ℕ) : ChannelDb :=
  s.mapAbilities (·.tag = some tag)
    (fun a => { a with
      tag := newTag.or a.tag
      priority := priority.getD a.priority
      weight := if weight.getD 0 = 0 then a.weight else weight.getD 0 })
    fun _ => rfl

def editChannelByTag (s : ChannelDb) (tag : String) (e : TagEdit) : ChannelDb :=
  let edited := s.updateRows (·.tag = some tag) (e.patch tag)
  if e.recreates then
    let channels := edited.channels.rows.filter (·.tag = some (e.newTag.getD tag))
    (channels.insertionSort fun a b => a.getPriority ≥ b.getPriority).foldl updateAbilities edited
  else edited.updateAbilityByTag tag e.newTag e.priority e.weight

/-- `BatchSetChannelTag`; the channels are read as they were before its transaction. -/
def batchSetChannelTag (s : ChannelDb) (ids : List ℕ) (tag : Option String) : ChannelDb :=
  let tagged := { s with
    channels := s.channels.map (fun c => if c.id ∈ ids then { c with tag } else c)
      (by intro c; split <;> rfl) }
  (s.channels.rows.filter (·.id ∈ ids)).foldl updateAbilities tagged

def deleteDisabledChannel (s : ChannelDb) : ChannelDb :=
  { s with channels := s.channels.filter fun c =>
      c.status ≠ .autoDisabled ∧ c.status ≠ .manuallyDisabled }

def fixAbility (s : ChannelDb) : ChannelDb :=
  (s.channels.rows.toChunks 50).foldl fixChunk s.truncateAbilities

/-- The administrative operations. -/
inductive Event where
  | insert (c : ChannelRow)
  | batchInsertChannels (cs : List ChannelRow)
  | update (p : ChannelPatch)
  | delete (id : ℕ)
  | batchDeleteChannels (ids : List ℕ)
  | updateChannelStatus (passes : Bool) (id : ℕ) (usingKey : String) (status : ChannelStatus)
    (reason : String) (now : ℤ)
  | enableChannelByTag (tag : String)
  | disableChannelByTag (tag : String)
  | editChannelByTag (tag : String) (e : TagEdit)
  | batchSetChannelTag (ids : List ℕ) (tag : Option String)
  | deleteDisabledChannel
  | fixAbility

def step (s : ChannelDb) : Event → ChannelDb
  | .insert c => s.insert c
  | .batchInsertChannels cs => s.batchInsertChannels cs
  | .update p => s.update unmarshalRaw p
  | .delete id => s.delete id
  | .batchDeleteChannels ids => s.batchDeleteChannels ids
  | .updateChannelStatus passes id usingKey status reason now =>
    if passes then s.updateChannelStatus unmarshalRaw id usingKey status reason now else s
  | .enableChannelByTag tag => s.enableChannelByTag tag
  | .disableChannelByTag tag => s.disableChannelByTag tag
  | .editChannelByTag tag e => s.editChannelByTag tag e
  | .batchSetChannelTag ids tag => s.batchSetChannelTag ids tag
  | .deleteDisabledChannel => s.deleteDisabledChannel
  | .fixAbility => s.fixAbility

end ChannelDb

/-! ## The rebuild of the cache, against single statements -/

/-- `newGroup2model2channels`; a group without an entry is a nil map. -/
abbrev GroupMap := String → Option (String → List ℕ)

namespace GroupMap

def ofGroups (groups : List String) : GroupMap :=
  fun g => if g ∈ groups then some fun _ => [] else none

/-- An id appended to the list of a group and a model; a write to a nil map panics. -/
def append (map : GroupMap) (group model : String) (id : ℕ) : Option GroupMap :=
  match map group with
  | none => none
  | some lists =>
    some (Function.update map group (some (Function.update lists model (lists model ++ [id]))))

def addChannel (map : GroupMap) (ch : Channel) : Option GroupMap :=
  (splitChar ',' ch.group).foldlM (fun map group =>
    (splitChar ',' ch.models).foldlM (fun map model => map.append group model ch.id) map) map

end GroupMap

/-- `InitChannelCache` up to the lock, from what it read; `none` is a panic. -/
def rebuild (channels : List Channel) (groups : List String) : Option ChannelIndex := do
  let map ← (channels.filter (·.status = .enabled)).foldlM GroupMap.addChannel
    (GroupMap.ofGroups groups)
  let priority id := ((channels.find? (·.id = id)).map Channel.getPriority).getD 0
  return fun g m => (((map g).getD fun _ => []) m).insertionSort
    fun a b => priority a ≥ priority b

namespace ChannelDb

/-- The statements of `Insert`, `Update`, `Delete` and `FixAbility`. -/
inductive Statement where
  | create (c : ChannelRow)
  | addAbilities (c : ChannelRow)
  | updateRow (p : ChannelPatch)
  | updateAbilities (c : ChannelRow)
  | deleteRow (id : ℕ)
  | deleteAbilities (ids : List ℕ)
  | truncateAbilities

def execute (s : ChannelDb) : Statement → ChannelDb
  | .create c => ((s.createRow c).map Prod.fst).getD s
  | .addAbilities c => s.addAbilities c
  | .updateRow p => s.updateRows (·.id = p.id) p
  | .updateAbilities c => s.updateAbilities c
  | .deleteRow id => s.deleteRows [id]
  | .deleteAbilities ids => s.deleteAbilities ids
  | .truncateAbilities => s.truncateAbilities

end ChannelDb

/-! ## The tables as the lookups read them -/

/-- `IsModelServableInGroup`. `draw` stands for the random number of `GetChannel`. -/
def ChannelStore.isModelServableInGroup (s : ChannelStore) (group model : String) (draw : ℕ) :
    Bool :=
  if !s.memoryCacheEnabled then
    (s.getChannel group model 0 draw).2 = none ∧ (s.getChannel group model 0 draw).1.isSome
  else if (s.group2model2channels group model).length > 0 then true
  else (s.group2model2channels group (formatMatchingModelName model)).length > 0

namespace ChannelDb

def toStore (s : ChannelDb) : ChannelStore :=
  { channels := ⟨s.channels.rows.map (·.toChannel), by
      simpa [List.map_map, Function.comp_def] using s.channels.nodup⟩
    abilities := s.abilities.rows.map (·.toAbility)
    memoryCacheEnabled := false }

def toCachedStore (unmarshalRaw : String → Option (List String)) (s : ChannelDb)
    (index : ChannelIndex) (cached : Table Channel.id) : ChannelStore :=
  ChannelStore.initChannelCache unmarshalRaw
    { s.toStore with
      memoryCacheEnabled := true
      group2model2channels := index
      channelsIDM := cached }

end ChannelDb

end AggreApi
