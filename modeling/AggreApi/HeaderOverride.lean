import AggreApi.Lib.Infix
import AggreApi.ParamOverride

/-!
# The headers of the upstream request

`processHeaderOverride` turns the effective header override of an attempt into headers: rules pass
client headers through by name, and the other entries are templates. Compiled patterns stay a
parameter.
-/

namespace AggreApi

def isTokenChar (c : Char) : Bool :=
  c.isAlphanum || "!#$%&'*+-.^_`|~".toList.contains c

def canonicalChars : Bool → List Char → List Char
  | _, [] => []
  | upper, c :: cs => (if upper then c.toUpper else c.toLower) :: canonicalChars (c == '-') cs

/-- `CanonicalMIMEHeaderKey`. -/
def canonicalHeaderKey (name : String) : String :=
  if name.toList.all isTokenChar then String.ofList (canonicalChars true name.toList) else name

structure HttpHeader where
  lines : AList fun _ : String => List String
  canonical : ∀ name ∈ lines.keys, canonicalHeaderKey name = name

namespace HttpHeader

variable (h : HttpHeader)

def get (name : String) : String := ((h.lines.lookup (canonicalHeaderKey name)).getD []).headD ""

def cloneRequestHeaders : HeaderMap :=
  insertAll ∅ (h.lines.keys.filterMap fun name =>
    let value := trimSpace (h.get name)
    if value = "" then none else some (name, value))

end HttpHeader

/-- `strings.ReplaceAll`, of a text that is not empty. -/
def replaceAll (s old new : String) : String :=
  String.ofList (replaceList old.toList new.toList 0 s.toList)

def apiKeyPlaceholder : String := "\x7bapi_key\x7d"

def userIdPlaceholder : String := "\x7buser_id\x7d"

def clientHeaderPlaceholderPrefix : String := "\x7bclient_header:"

structure TemplateEnv where
  header : HttpHeader
  userId : ℤ
  apiKey : String

def isClientHeader (template : String) : Bool :=
  startsWith clientHeaderPlaceholderPrefix (trimSpace template)

def clientHeaderName (template : String) : Except String String :=
  let afterPrefix := (trimSpace template).toList.drop clientHeaderPlaceholderPrefix.toList.length
  let inner := afterPrefix.takeWhile (· ≠ '\x7d')
  if inner.length + 1 ≠ afterPrefix.length then
    .error ("client_header placeholder must be the full value: " ++ template)
  else if trimSpace (String.ofList inner) = "" then
    .error ("client_header placeholder name is empty: " ++ template)
  else .ok (trimSpace (String.ofList inner))

namespace TemplateEnv

variable (env : TemplateEnv)

def fill (template : String) : String :=
  replaceAll (replaceAll template apiKeyPlaceholder env.apiKey) userIdPlaceholder
    (toString env.userId)

/-- `applyHeaderOverridePlaceholders`; `none` where the header is left out. -/
def applyHeaderOverridePlaceholders (template : String) : Except String (Option String) :=
  if isClientHeader template then
    match clientHeaderName template with
    | .error e => .error e
    | .ok name =>
      let value := env.header.get name
      .ok (if trimSpace value = "" then none else some value)
  else .ok (if trimSpace (env.fill template) = "" then none else some (env.fill template))

end TemplateEnv

/-- `passthroughSkipHeaderNamesLower`. -/
def passthroughSkipHeaderNames : List String :=
  ["connection", "keep-alive", "proxy-authenticate", "proxy-authorization", "te", "trailer",
    "transfer-encoding", "upgrade", "cookie", "host", "content-length", "accept-encoding",
    "authorization", "x-api-key", "x-goog-api-key", "sec-websocket-key", "sec-websocket-version",
    "sec-websocket-extensions"]

def shouldSkipPassthroughHeader (name : String) : Bool :=
  trimSpace name = "" || passthroughSkipHeaderNames.contains (toLower (trimSpace name))

inductive PassRule where
  | all
  | pattern (text : String)
  | ordinary
  deriving DecidableEq, Repr

def afterTag (tag s : String) : String := trimSpace (String.ofList (s.toList.drop tag.length))

def passRule (key : String) : PassRule :=
  let key := normalizeHeaderContextKey key
  if key = "*" then .all
  else if startsWith "re:" key then .pattern (afterTag "re:" key)
  else if startsWith "regex:" key then .pattern (afterTag "regex:" key)
  else .ordinary

def passRules (compile : String → Option (String → Bool)) :
    List String → Except String (Bool × List (String → Bool))
  | [] => .ok (false, [])
  | key :: keys =>
    match passRule key with
    | .ordinary => passRules compile keys
    | .all =>
      match passRules compile keys with
      | .error e => .error e
      | .ok (_, patterns) => .ok (true, patterns)
    | .pattern text =>
      if text = "" then .error ("header passthrough regex pattern is empty: " ++ key)
      else
        match compile text with
        | none => .error "error parsing regexp"
        | some p =>
          match passRules compile keys with
          | .error e => .error e
          | .ok (all, patterns) => .ok (all, p :: patterns)

def passThrough (h : HttpHeader) (rules : Bool × List (String → Bool)) : HeaderMap :=
  if rules.1 || !rules.2.isEmpty then
    insertAll ∅ (h.lines.keys.filterMap fun name =>
      let value := trimSpace (h.get name)
      if shouldSkipPassthroughHeader name || !(rules.1 || rules.2.any (· name)) || value == "" then
        none
      else some (toLower (trimSpace name), value))
  else ∅

structure HeaderEnv extends TemplateEnv where
  compile : String → Option (String → Bool)
  isChannelTest : Bool := false
  customUserHeader : Option String := none

/-- The custom user header of the channel settings, if it is enabled and not blank. -/
def customUserHeader (settings : Json) : Option String :=
  match settings with
  | .obj members =>
    let key := trimSpace ((JsonObject.getStr? members "custom_user_header_key").getD "")
    if JsonObject.getBool members "custom_user_header_enabled" ∧ key ≠ "" then some (toLower key)
    else none
  | _ => none

def headerThen : Except String (Option (String × String)) →
    Except String (List (String × String)) → Except String (List (String × String))
  | .error e, _ => .error e
  | .ok _, .error e => .error e
  | .ok header, .ok rest => .ok (header.toList ++ rest)

namespace HeaderEnv

variable (env : HeaderEnv)

def expandEntry (key value : String) : Except String (Option (String × String)) :=
  if isHeaderPassthroughRuleKey key ∨ normalizeHeaderContextKey key = "" then .ok none
  else if env.isChannelTest ∧ isClientHeader value then .ok none
  else
    match env.applyHeaderOverridePlaceholders value with
    | .error e => .error e
    | .ok r => .ok (r.map fun v => (normalizeHeaderContextKey key, v))

def expandEntries : List (Σ _ : String, String) → Except String (List (String × String))
  | [] => .ok []
  | e :: es => headerThen (env.expandEntry e.1 e.2) (expandEntries es)

def rulesOf (source : HeaderMap) : Except String (Bool × List (String → Bool)) :=
  if env.isChannelTest then .ok (false, []) else passRules env.compile source.keys

def withCustomHeader (headers : HeaderMap) : HeaderMap :=
  match env.customUserHeader with
  | none => headers
  | some key => headers.insert key (toString env.userId)

/-- `processHeaderOverride`, on the effective header override. -/
def processHeaderOverride (source : HeaderMap) : Except String HeaderMap :=
  match env.rulesOf source with
  | .error e => .error e
  | .ok rules =>
    match env.expandEntries source.entries with
    | .error e => .error e
    | .ok entries => .ok (env.withCustomHeader (insertAll (passThrough env.header rules) entries))

end HeaderEnv

structure HeaderRequest where
  header : HttpHeader
  userId : ℤ
  compile : String → Option (String → Bool)

namespace OverrideInfo

variable {Body : Type} (eng : OverrideEngine Body) (r : HeaderRequest) (body : Body)
  (info : OverrideInfo)

def headerEnv : HeaderEnv where
  header := r.header
  userId := r.userId
  apiKey := info.channelMeta.apiKey
  compile := r.compile
  isChannelTest := info.isChannelTest
  customUserHeader := AggreApi.customUserHeader info.channelMeta.channelOtherSettings

/-- The parameter override is applied to the relay info with a copy of the client's headers, and
the header override it leaves is expanded. -/
def upstreamHeaders : Except String HeaderMap :=
  let info := { info with requestHeaders := r.header.cloneRequestHeaders }
  match info.applyParamOverrideWithRelayInfo eng body with
  | .error e => .error e
  | .ok (_, info) => (info.headerEnv r).processHeaderOverride info.getEffectiveHeaderOverride

end OverrideInfo

end AggreApi
