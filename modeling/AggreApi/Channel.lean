import AggreApi.Lib.Json
import AggreApi.TopUpWebhook
import AggreApi.Subscription

/-!
# Channels

The row of a channel, its keys and what is read off it. The JSON columns are kept decoded; the
decoding of a key column that holds a JSON array stays a parameter.
-/

namespace AggreApi

inductive ChannelStatus where
  | unknown
  | enabled
  | manuallyDisabled
  | autoDisabled
  deriving DecidableEq, Repr

inductive MultiKeyMode where
  | random
  | polling
  | other
  deriving DecidableEq, Repr

/-- `ChannelInfo`: the multi-key state of a channel. The maps are keyed by the key's index. -/
structure ChannelInfo where
  isMultiKey : Bool := false
  multiKeySize : ℕ := 0
  multiKeyStatusList : AList fun _ : ℕ => ChannelStatus := ∅
  multiKeyDisabledReason : AList fun _ : ℕ => String := ∅
  multiKeyDisabledTime : AList fun _ : ℕ => ℤ := ∅
  multiKeyPollingIndex : ℤ := 0
  multiKeyMode : MultiKeyMode := .other

/-- `Channel`. Of `other_info` only the two entries are kept that a change of status writes. -/
structure Channel where
  id : ℕ
  type : ℕ := 0
  key : String := ""
  openAIOrganization : Option String := none
  status : ChannelStatus := .enabled
  name : String := ""
  weight : Option ℕ := none
  createdTime : ℤ := 0
  baseURL : Option String := none
  other : String := ""
  models : String := ""
  group : String := "default"
  modelMapping : Option String := none
  statusCodeMapping : Option String := none
  priority : Option ℤ := none
  autoBan : Option ℤ := none
  statusReason : Option String := none
  statusTime : Option ℤ := none
  setting : Json := .obj []
  paramOverride : JsonObject := []
  headerOverride : JsonObject := []
  channelInfo : ChannelInfo := {}
  otherSettings : Json := .obj []
  keys : List String := []

def splitChar (c : Char) (s : String) : List String := (s.toList.splitOn c).map String.ofList

/-- `strings.Trim`, of one character. -/
def trimChar (c : Char) (s : String) : String :=
  String.ofList ((s.toList.dropWhile (· = c)).reverse.dropWhile (· = c)).reverse

namespace Channel

def getPriority (ch : Channel) : ℤ := ch.priority.getD 0

def getWeight (ch : Channel) : ℕ := ch.weight.getD 0

def getAutoBan (ch : Channel) : Bool := ch.autoBan = some 1

/-- `GetKeys`; `unmarshalRaw` decodes a JSON array into the texts of its elements. -/
def getKeys (unmarshalRaw : String → Option (List String)) (ch : Channel) : List String :=
  if ch.key = "" then []
  else if ch.keys ≠ [] then ch.keys
  else
    let lines := splitChar '\n' (trimChar '\n' ch.key)
    if startsWith "[" (trimSpace ch.key) then (unmarshalRaw (trimSpace ch.key)).getD lines
    else lines

end Channel

end AggreApi
