import AggreApi.Lib.Dict
import AggreApi.ChannelContext

/-!
# Parameter overrides

A channel's parameter override edits the request body, and its header operations edit a copy of the
header override, which the attempt then uses in place of the channel's. The edits of the body and
the conditions stay parameters.
-/

namespace AggreApi

/-! ## Values as text -/

mutual

/-- The text of a value under the verb `%v`. -/
def Json.format : Json → String
  | .null => "<nil>"
  | .bool b => if b then "true" else "false"
  | .num text => text
  | .str s => s
  | .arr elems => "[" ++ " ".intercalate (Json.formatElems elems) ++ "]"
  | .obj members =>
    "map[" ++ " ".intercalate (((Json.formatMembers members).insertionSort (·.1 ≤ ·.1)).map
      fun m => m.1 ++ ":" ++ m.2) ++ "]"

def Json.formatElems : List Json → List String
  | [] => []
  | v :: vs => v.format :: Json.formatElems vs

def Json.formatMembers : List (String × Json) → List (String × String)
  | [] => []
  | (k, v) :: ms => (k, v.format) :: Json.formatMembers ms

end

/-! ## Header overrides -/

abbrev HeaderMap := AList fun _ : String => String

def HeaderMap.toJson (m : HeaderMap) : JsonObject := m.entries.map fun e => (e.1, .str e.2)

def normalizeHeaderContextKey (key : String) : String := trimSpace (toLower key)

/-- `isHeaderPassthroughRuleKeyForOverride`, and the test of the same rule in the relay. -/
def isHeaderPassthroughRuleKey (key : String) : Bool :=
  let key := normalizeHeaderContextKey key
  key = "*" || startsWith "re:" key || startsWith "regex:" key

/-- One entry of `sanitizeHeaderOverrideMap`: a blank value is kept for a passthrough rule only. -/
def sanitizeEntry (target : HeaderMap) (m : String × Json) : HeaderMap :=
  let key := normalizeHeaderContextKey m.1
  let value := trimSpace m.2.format
  if key = "" then target
  else if value = "" then if isHeaderPassthroughRuleKey key then target.insert key "" else target
  else target.insert key value

def sanitizeHeaderOverrideMap (source : JsonObject) : HeaderMap := source.foldl sanitizeEntry ∅

/-! ## The context of the operations -/

structure OverrideContext where
  facts : JsonObject := []
  requestHeaders : HeaderMap := ∅
  headerOverride : HeaderMap := ∅

namespace OverrideContext

variable (ctx : OverrideContext)

def getHeaderValue (headerName : String) : Option String :=
  let headerName := normalizeHeaderContextKey headerName
  if headerName = "" then none
  else
    [ctx.headerOverride, ctx.requestHeaders].findSome? fun source =>
      match source.lookup headerName with
      | none => none
      | some raw => if trimSpace raw = "" then none else some (trimSpace raw)

end OverrideContext

def splitHeaderListValue (raw : String) : List String :=
  ((splitChar ',' raw).map trimSpace).filter (· ≠ "")

mutual

def parseHeaderReplacementTokens : Json → Except String (List String)
  | .null => .ok []
  | .str raw => .ok (splitHeaderListValue raw)
  | .arr elems =>
    match replacementTokensOfElems elems with
    | .error e => .error e
    | .ok tokens => .ok tokens.eraseDups
  | .obj _ => .error "header replacement value must be string, array or null"
  | .bool b => .ok (([(Json.bool b).format].map trimSpace).filter (· ≠ ""))
  | .num text => .ok (([text].map trimSpace).filter (· ≠ ""))

def replacementTokensOfElems : List Json → Except String (List String)
  | [] => .ok []
  | v :: vs =>
    match parseHeaderReplacementTokens v with
    | .error e => .error e
    | .ok tokens =>
      match replacementTokensOfElems vs with
      | .error e => .error e
      | .ok rest => .ok (tokens ++ rest)

end

def parseHeaderAppendTokens (mapping : JsonObject) : Except String (List String) :=
  match mapping.lookup "$append" with
  | none => .ok []
  | some raw => parseHeaderReplacementTokens raw

def parseHeaderKeepOnlyDeclared (mapping : JsonObject) : Bool :=
  match mapping.lookup "$keep_only_declared" with
  | some (.bool b) => b
  | _ => false

def mapToken (mapping : JsonObject) (token : String) : Except String (List String) :=
  let keepOnlyDeclared := parseHeaderKeepOnlyDeclared mapping
  match mapping.lookup token, mapping.lookup "*" with
  | some raw, _ => parseHeaderReplacementTokens raw
  | none, some wildcard =>
    if keepOnlyDeclared then .ok [] else parseHeaderReplacementTokens wildcard
  | none, none => .ok (if keepOnlyDeclared then [] else [token])

def mapTokens (mapping : JsonObject) : List String → Except String (List String)
  | [] => .ok []
  | token :: rest =>
    match mapToken mapping token with
    | .error e => .error e
    | .ok tokens =>
      match mapTokens mapping rest with
      | .error e => .error e
      | .ok more => .ok (tokens ++ more)

namespace OverrideContext

variable (ctx : OverrideContext)

/-- `resolveHeaderOverrideValueByMapping`; `none` where no token is left. -/
def resolveByMapping (headerName : String) (mapping : JsonObject) :
    Except String (Option String) :=
  if mapping = [] then .error "header value mapping cannot be empty"
  else
    match parseHeaderAppendTokens mapping with
    | .error e => .error e
    | .ok appendTokens =>
      match mapTokens mapping
          (((ctx.getHeaderValue headerName).map splitHeaderListValue).getD []) with
      | .error e => .error e
      | .ok tokens =>
        let resultTokens := (tokens ++ appendTokens).eraseDups
        .ok (if resultTokens = [] then none else some (",".intercalate resultTokens))

def resolveHeaderOverrideValue (headerName : String) (value : Json) :
    Except String (Option String) :=
  match value with
  | .null => .error "header value is required"
  | .obj mapping => ctx.resolveByMapping headerName mapping
  | v =>
    let headerValue := trimSpace v.format
    .ok (if headerValue = "" then none else some headerValue)

/-- `setHeaderOverrideInContext`. -/
def setHeaderOverride (headerName : String) (value : Json) (keepOrigin : Bool) :
    Except String OverrideContext :=
  let headerName := normalizeHeaderContextKey headerName
  if headerName = "" then .error "header name is required"
  else if keepOrigin && decide (trimSpace ((ctx.headerOverride.lookup headerName).getD "") ≠ "")
  then .ok ctx
  else
    match ctx.resolveHeaderOverrideValue headerName value with
    | .error e => .error e
    | .ok none => .ok { ctx with headerOverride := ctx.headerOverride.erase headerName }
    | .ok (some v) => .ok { ctx with headerOverride := ctx.headerOverride.insert headerName v }

/-- `deleteHeaderOverrideInContext`. -/
def deleteHeaderOverride (headerName : String) : Except String OverrideContext :=
  let headerName := normalizeHeaderContextKey headerName
  if headerName = "" then .error "header name is required"
  else .ok { ctx with headerOverride := ctx.headerOverride.erase headerName }

/-- `copyHeaderInContext`; `none` where the source header does not exist. -/
def copyHeader (fromHeader toHeader : String) (keepOrigin : Bool) :
    Except String (Option OverrideContext) :=
  if normalizeHeaderContextKey fromHeader = "" ∨ normalizeHeaderContextKey toHeader = "" then
    .error "copy_header from/to is required"
  else
    match ctx.getHeaderValue fromHeader with
    | none => .ok none
    | some value =>
      match ctx.setHeaderOverride toHeader (.str value) keepOrigin with
      | .error e => .error e
      | .ok ctx => .ok (some ctx)

/-- `moveHeaderInContext`. -/
def moveHeader (fromHeader toHeader : String) (keepOrigin : Bool) :
    Except String (Option OverrideContext) :=
  if normalizeHeaderContextKey fromHeader = "" ∨ normalizeHeaderContextKey toHeader = "" then
    .error "move_header from/to is required"
  else
    match ctx.copyHeader fromHeader toHeader keepOrigin with
    | .error e => .error e
    | .ok none => .ok none
    | .ok (some ctx) =>
      if normalizeHeaderContextKey fromHeader = normalizeHeaderContextKey toHeader then
        .ok (some ctx)
      else
        match ctx.deleteHeaderOverride fromHeader with
        | .error e => .error e
        | .ok ctx => .ok (some ctx)

end OverrideContext

/-! ## Operations -/

structure ConditionOperation where
  path : String
  mode : String
  value : Json := .null
  invert : Bool := false
  passMissingKey : Bool := false

/-- `ParamOperation`; the fields `from` and `to` are called `source` and `target` here. -/
structure ParamOperation where
  path : String := ""
  mode : String
  value : Json := .null
  keepOrigin : Bool := false
  source : String := ""
  target : String := ""
  conditions : List ConditionOperation := []
  logic : String := "OR"

def normalizeNames (values : List String) : List String :=
  ((values.map normalizeHeaderContextKey).filter (· ≠ "")).eraseDups

def someNames (names : List String) : Except String (List String) :=
  if names = [] then .error "pass_headers value is invalid" else .ok names

mutual

def Json.rank : Json → ℕ
  | .str s => s.length + 1
  | .obj members => Json.rankMembers members + 1
  | _ => 1

def Json.rankMembers : List (String × Json) → ℕ
  | [] => 0
  | (_, v) :: ms => max v.rank (Json.rankMembers ms)

end

/-- Left open: the decoding of a text, the conditions, the edits of the body, and the error of
`return_error`. -/
structure OverrideEngine (Body : Type) where
  unmarshalJson : String → Option Json
  unmarshal_rank : ∀ s v, unmarshalJson s = some v → v.rank ≤ s.length
  applyLegacy : Body → JsonObject → Except String Body
  checkConditions : Body → OverrideContext → List ConditionOperation → String → Except String Bool
  editBody : Body → OverrideContext → ParamOperation → Except String Body
  getValue : Body → String → Option Json
  setValue : Body → String → Json → Except String Body
  returnError : Json → String

/-- `parseHeaderPassThroughNames`; a text may hold an encoded value, so `fuel` bounds it. -/
def passThroughNames (unmarshalJson : String → Option Json) :
    ℕ → Json → Except String (List String)
  | 0, _ => .error "pass_headers value is invalid"
  | _ + 1, .null => .error "pass_headers value is required"
  | fuel + 1, .str raw =>
    let trimmed := trimSpace raw
    if trimmed = "" then .error "pass_headers value is required"
    else
      match (if startsWith "[" trimmed || startsWith "\x7b" trimmed then unmarshalJson trimmed
        else none) with
      | some parsed => passThroughNames unmarshalJson fuel parsed
      | none => someNames (normalizeNames (splitChar ',' trimmed))
  | _ + 1, .arr elems => someNames (normalizeNames (elems.map Json.format))
  | fuel + 1, .obj members =>
    someNames (normalizeNames (["headers", "names", "header"].flatMap fun key =>
      match members.lookup key with
      | none => []
      | some raw =>
        match passThroughNames unmarshalJson fuel raw with
        | .ok names => names
        | .error _ => []))
  | _ + 1, _ => .error "pass_headers value must be string, array or object"

namespace OverrideEngine

variable {Body : Type} (eng : OverrideEngine Body)

def parseHeaderPassThroughNames (value : Json) : Except String (List String) :=
  passThroughNames eng.unmarshalJson value.rank value

end OverrideEngine

def bodyModes : List String :=
  ["delete", "set", "move", "copy", "prepend", "append", "trim_prefix", "trim_suffix",
    "ensure_prefix", "ensure_suffix", "trim_space", "to_lower", "to_upper", "replace",
    "regex_replace", "prune_objects"]

inductive SyncTarget where
  | json (key : String)
  | header (key : String)
  deriving DecidableEq, Repr

def parseSyncTarget (spec : String) : Except String SyncTarget :=
  let raw := trimSpace spec
  if raw = "" then .error "sync_fields target is required"
  else if ':' ∉ raw.toList then .ok (.json raw)
  else
    let kind := toLower (trimSpace (String.ofList (raw.toList.takeWhile (· ≠ ':'))))
    let key := trimSpace (String.ofList ((raw.toList.dropWhile (· ≠ ':')).drop 1))
    if key = "" then .error ("sync_fields target key is required: " ++ raw)
    else if kind = "json" ∨ kind = "body" then .ok (.json key)
    else if kind = "header" then .ok (.header key)
    else .error ("sync_fields target prefix is invalid: " ++ raw)

namespace OverrideEngine

variable {Body : Type} (eng : OverrideEngine Body)

/-- `readSyncTargetValue`. -/
def readSyncTarget (body : Body) (ctx : OverrideContext) : SyncTarget → Option Json
  | .json key =>
    match eng.getValue body key with
    | some .null => none
    | some (.str s) => if trimSpace s = "" then none else some (.str s)
    | v => v
  | .header key => (ctx.getHeaderValue key).map .str

/-- `writeSyncTargetValue`. -/
def writeSyncTarget (body : Body) (ctx : OverrideContext) (value : Json) :
    SyncTarget → Except String (Body × OverrideContext)
  | .json key =>
    match eng.setValue body key value with
    | .error e => .error e
    | .ok body => .ok (body, ctx)
  | .header key =>
    match ctx.setHeaderOverride key value false with
    | .error e => .error e
    | .ok ctx => .ok (body, ctx)

/-- `syncFieldsBetweenTargets`: the side that is missing is written. -/
def syncFields (body : Body) (ctx : OverrideContext) (source target : String) :
    Except String (Body × OverrideContext) :=
  match parseSyncTarget source, parseSyncTarget target with
  | .error e, _ => .error e
  | .ok _, .error e => .error e
  | .ok s, .ok t =>
    match eng.readSyncTarget body ctx s, eng.readSyncTarget body ctx t with
    | some v, none => eng.writeSyncTarget body ctx v t
    | none, some v => eng.writeSyncTarget body ctx v s
    | _, _ => .ok (body, ctx)

/-- `pass_headers`: a header the client did not send is passed over. -/
def passHeaders (keepOrigin : Bool) : List String → OverrideContext → Except String OverrideContext
  | [], ctx => .ok ctx
  | name :: rest, ctx =>
    match ctx.copyHeader name name keepOrigin with
    | .error e => .error e
    | .ok none => passHeaders keepOrigin rest ctx
    | .ok (some ctx) => passHeaders keepOrigin rest ctx

def headerOr (name path : String) : String :=
  if trimSpace name = "" then trimSpace path else trimSpace name

def withBody (body : Body) : Except String OverrideContext → Except String (Body × OverrideContext)
  | .error e => .error e
  | .ok ctx => .ok (body, ctx)

/-- The result of copying or moving a header; nothing happens where the header does not exist. -/
def withBodyOr (body : Body) (ctx : OverrideContext) :
    Except String (Option OverrideContext) → Except String (Body × OverrideContext)
  | .error e => .error e
  | .ok ctx' => .ok (body, ctx'.getD ctx)

def applyMode (op : ParamOperation) (body : Body) (ctx : OverrideContext) :
    Except String (Body × OverrideContext) :=
  if op.mode ∈ bodyModes then
    match eng.editBody body ctx op with
    | .error e => .error e
    | .ok body => .ok (body, ctx)
  else if op.mode = "return_error" then .error (eng.returnError op.value)
  else if op.mode = "set_header" then
    withBody body (ctx.setHeaderOverride op.path op.value op.keepOrigin)
  else if op.mode = "delete_header" then withBody body (ctx.deleteHeaderOverride op.path)
  else if op.mode = "copy_header" then
    withBodyOr body ctx
      (ctx.copyHeader (headerOr op.source op.path) (headerOr op.target op.path) op.keepOrigin)
  else if op.mode = "move_header" then
    withBodyOr body ctx
      (ctx.moveHeader (headerOr op.source op.path) (headerOr op.target op.path) op.keepOrigin)
  else if op.mode = "pass_headers" then
    match eng.parseHeaderPassThroughNames op.value with
    | .error e => .error e
    | .ok names => withBody body (passHeaders op.keepOrigin names ctx)
  else if op.mode = "sync_fields" then eng.syncFields body ctx op.source op.target
  else .error ("unknown operation: " ++ op.mode)

def applyOperations : List ParamOperation → Body → OverrideContext →
    Except String (Body × OverrideContext)
  | [], body, ctx => .ok (body, ctx)
  | op :: ops, body, ctx =>
    match (if op.conditions.isEmpty then .ok true
      else eng.checkConditions body ctx op.conditions op.logic) with
    | .error e => .error e
    | .ok false => applyOperations ops body ctx
    | .ok true =>
      match eng.applyMode op body ctx with
      | .error e => .error e
      | .ok (body, ctx) => applyOperations ops body ctx

end OverrideEngine

/-! ## Parsing the operations -/

def JsonObject.getStr? (o : JsonObject) (k : String) : Option String :=
  match o.lookup k with
  | some (.str s) => some s
  | _ => none

/-- The truth value under a key, `false` unless there is one. -/
def JsonObject.getBool (o : JsonObject) (k : String) : Bool :=
  match o.lookup k with
  | some (.bool b) => b
  | _ => false

def parseCondition : Json → Option ConditionOperation
  | .obj item =>
    let path := (JsonObject.getStr? item "path").getD ""
    let mode := (JsonObject.getStr? item "mode").getD ""
    if trimSpace path = "" ∨ trimSpace mode = "" then none
    else some
      { path, mode, value := (item.lookup "value").getD .null
        invert := JsonObject.getBool item "invert"
        passMissingKey := JsonObject.getBool item "pass_missing_key" }
  | _ => none

/-- `parseConditionOperations`; `none` where it returns an error. -/
def parseConditionOperations : Json → Option (List ConditionOperation)
  | .obj members =>
    let conditions := (members.filter fun m => trimSpace m.1 ≠ "").map fun m =>
      { path := trimSpace m.1, mode := "full", value := m.2 : ConditionOperation }
    if conditions.isEmpty then none else some conditions
  | .arr items => items.mapM parseCondition
  | _ => none

def parseOperation : Json → Option ParamOperation
  | .obj op =>
    match JsonObject.getStr? op "mode" with
    | none => none
    | some mode =>
      match (op.lookup "conditions").map parseConditionOperations with
      | some none => none
      | conditions => some
          { path := (JsonObject.getStr? op "path").getD "", mode
            value := (op.lookup "value").getD .null
            keepOrigin := JsonObject.getBool op "keep_origin"
            source := (JsonObject.getStr? op "from").getD ""
            target := (JsonObject.getStr? op "to").getD ""
            conditions := (conditions.getD none).getD []
            logic := (JsonObject.getStr? op "logic").getD "OR" }
  | _ => none

def tryParseOperations (paramOverride : JsonObject) : Option (List ParamOperation) :=
  match paramOverride.lookup "operations" with
  | some (.arr ops) => ops.mapM parseOperation
  | _ => none

def buildLegacyParamOverride (paramOverride : JsonObject) : JsonObject :=
  paramOverride.filter fun m => !isOperationsKey m.1

namespace OverrideEngine

variable {Body : Type} (eng : OverrideEngine Body)

def applyParamOverride (body : Body) (paramOverride : JsonObject) (ctx : OverrideContext) :
    Except String (Body × OverrideContext) :=
  let legacy (override : JsonObject) : Except String Body :=
    if override.isEmpty then .ok body else eng.applyLegacy body override
  match tryParseOperations paramOverride with
  | some operations =>
    match legacy (buildLegacyParamOverride paramOverride) with
    | .error e => .error e
    | .ok body => eng.applyOperations operations body ctx
  | none =>
    match legacy paramOverride with
    | .error e => .error e
    | .ok body => .ok (body, ctx)

end OverrideEngine

/-! ## Overrides of an attempt -/

structure LastError where
  statusCode : ℤ
  message : String
  errorCode : String
  errorType : String
  skipRetry : Bool
  deriving DecidableEq, Repr

/-- The fields of `RelayInfo` that overrides read and write. -/
structure OverrideInfo where
  attempt : AttemptInfo
  requestURLPath : String := ""
  requestHeaders : HeaderMap := ∅
  isChannelTest : Bool := false
  retryIndex : ℕ := 0
  lastError : Option LastError := none
  runtimeHeadersOverride : HeaderMap := ∅
  useRuntimeHeadersOverride : Bool := false

def contextEntry (e : Σ _ : String, String) : Option (String × String) :=
  if normalizeHeaderContextKey e.1 = "" ∨ trimSpace e.2 = "" then none
  else some (normalizeHeaderContextKey e.1, trimSpace e.2)

def buildRequestHeadersContext (headers : HeaderMap) : HeaderMap :=
  insertAll ∅ (headers.entries.filterMap contextEntry)

namespace OverrideInfo

variable (info : OverrideInfo)

def channelMeta : ChannelMeta := info.attempt.channelMeta.getD {}

def getEffectiveHeaderOverride : HeaderMap :=
  if info.useRuntimeHeadersOverride then
    sanitizeHeaderOverrideMap info.runtimeHeadersOverride.toJson
  else sanitizeHeaderOverrideMap info.channelMeta.headersOverride

def requestFacts : JsonObject :=
  let upstream := info.channelMeta.upstreamModelName
  let origin := info.attempt.originModelName
  (if upstream ≠ "" then [("model", .str upstream), ("upstream_model", .str upstream)] else []) ++
  (if origin ≠ "" then
    ("original_model", .str origin) :: if upstream = "" then [("model", .str origin)] else []
  else []) ++
  (if info.requestURLPath ≠ "" then [("request_path", .str info.requestURLPath)] else [])

def retryFacts : JsonObject :=
  let index := Json.num (toString info.retryIndex)
  let isRetry := Json.bool (0 < info.retryIndex)
  [("retry_index", index), ("is_retry", isRetry),
    ("retry", .obj [("index", index), ("is_retry", isRetry)])] ++
  match info.lastError with
  | none => []
  | some e =>
    [("last_error", .obj [("status_code", .num (toString e.statusCode)),
        ("message", .str e.message), ("code", .str e.errorCode), ("error_code", .str e.errorCode),
        ("type", .str e.errorType), ("error_type", .str e.errorType),
        ("skip_retry", .bool e.skipRetry)]),
      ("last_error_status_code", .num (toString e.statusCode)),
      ("last_error_message", .str e.message), ("last_error_code", .str e.errorCode),
      ("last_error_type", .str e.errorType)]

def buildParamOverrideContext : OverrideContext where
  facts := info.requestFacts ++ info.retryFacts ++ [("is_channel_test", .bool info.isChannelTest)]
  requestHeaders := buildRequestHeadersContext info.requestHeaders
  headerOverride := sanitizeHeaderOverrideMap info.getEffectiveHeaderOverride.toJson

/-- `syncRuntimeHeaderOverrideFromContext`. -/
def syncRuntimeHeaderOverride (ctx : OverrideContext) : OverrideInfo :=
  { info with
    runtimeHeadersOverride := sanitizeHeaderOverrideMap (HeaderMap.toJson ctx.headerOverride)
    useRuntimeHeadersOverride := true }

def applyParamOverrideWithRelayInfo {Body : Type} (eng : OverrideEngine Body) (body : Body) :
    Except String (Body × OverrideInfo) :=
  let paramOverride := info.channelMeta.paramOverride
  if paramOverride.isEmpty then .ok (body, info)
  else
    match eng.applyParamOverride body paramOverride info.buildParamOverrideContext with
    | .error e => .error e
    | .ok (body, ctx) => .ok (body, info.syncRuntimeHeaderOverride ctx)

end OverrideInfo

/-! ## The attempts of a request -/

/-- What does not change from attempt to attempt. -/
structure OverrideEnv (Body : Type) where
  channel : ChannelEnv
  handler : RelayHandler
  modelName : String
  engine : OverrideEngine Body
  requestURLPath : String := ""
  requestHeaders : HeaderMap := ∅

/-- A pass of the loop: the channel, how the body is made, and what the context shows. -/
structure OverridePass (Body : Type) where
  pick : ChannelPick
  converted : Bool := true
  passThrough : Bool := false
  body : Body
  retryIndex : ℕ := 0
  lastError : Option LastError := none

structure OverrideRequest where
  base : ChannelRequest := {}
  runtimeHeadersOverride : HeaderMap := ∅
  useRuntimeHeadersOverride : Bool := false

def AttemptRecord.sends (handler : RelayHandler) (r : AttemptRecord) : Bool :=
  match r.mapped with
  | some (.ok _) => true
  | some (.error _) => false
  | none => handler = .realtime

def AttemptRecord.edits (passThrough : Bool) (r : AttemptRecord) : Bool :=
  match r.mapped with
  | some (.ok _) => !passThrough
  | _ => false

namespace OverrideRequest

variable {Body : Type} (env : OverrideEnv Body)

def infoOf (s : OverrideRequest) (p : OverridePass Body) (info : AttemptInfo) : OverrideInfo where
  attempt := info
  requestURLPath := env.requestURLPath
  requestHeaders := env.requestHeaders
  retryIndex := p.retryIndex
  lastError := p.lastError
  runtimeHeadersOverride := s.runtimeHeadersOverride
  useRuntimeHeadersOverride := s.useRuntimeHeadersOverride

/-- An attempt from the model names to the headers, with the header override it sends with. -/
def useOverrides (s : OverrideRequest) (p : OverridePass Body) (info : AttemptInfo)
    (r : AttemptRecord) : OverrideRequest × Option HeaderMap :=
  let oi := s.infoOf env p info
  if r.edits p.passThrough then
    match oi.applyParamOverrideWithRelayInfo env.engine p.body with
    | .error _ => (s, none)
    | .ok (_, oi) =>
      ({ s with
          runtimeHeadersOverride := oi.runtimeHeadersOverride
          useRuntimeHeadersOverride := oi.useRuntimeHeadersOverride },
        some oi.getEffectiveHeaderOverride)
  else (s, if r.sends env.handler then some oi.getEffectiveHeaderOverride else none)

def attempt (s : OverrideRequest) (p : OverridePass Body) : OverrideRequest × Option HeaderMap :=
  let a := s.base.attempt env.channel env.handler env.modelName p.pick
  match a.2 with
  | none => ({ s with base := a.1 }, none)
  | some r =>
    let s := { s with base := a.1 }
    if p.converted then s.useOverrides env p (a.1.info.getD ⟨"", none⟩) r else (s, none)

def step (s : OverrideRequest) (p : OverridePass Body) : OverrideRequest := (s.attempt env p).1

end OverrideRequest

end AggreApi
