import AggreApi.HeaderOverride

/-!
# The address of the client

`RealIP` runs before every other middleware and rewrites the remote address of a request to the
address its headers name: one of three headers with a single address, or `X-Forwarded-For`, which is
walked from the right. How addresses and networks are read is a parameter.
-/

namespace AggreApi

def joinHostPort (host port : String) : String :=
  if ':' ∈ host.toList then "[" ++ host ++ "]:" ++ port else host ++ ":" ++ port

/-- `net.SplitHostPort`; `none` where it returns an error. -/
def splitHostPort (s : String) : Option (String × String) :=
  let cs := s.toList
  let port := cs.rtakeWhile (· ≠ ':')
  let front := cs.take (cs.length - port.length - 1)
  let host := (cs.drop 1).takeWhile (· ≠ ']')
  if ':' ∉ cs then none
  else if cs.head? = some '[' then
    if front = '[' :: host ++ [']'] ∧ '[' ∉ host ∧ '[' ∉ port ∧ ']' ∉ port then
      some (String.ofList host, String.ofList port)
    else none
  else if ':' ∈ front ∨ '[' ∈ cs ∨ ']' ∈ cs then none
  else some (String.ofList front, String.ofList port)

def isAddressChar (c : Char) : Bool :=
  c.isDigit || ('a' ≤ c && c ≤ 'f') || ('A' ≤ c && c ≤ 'F') || c = '.' || c = ':'

/-- `net.ParseIP`, `net.ParseCIDR` and `IPNet.Contains`. -/
structure IPLib where
  Addr : Type
  Net : Type
  parseIP : String → Option Addr
  parseCIDR : String → Option Net
  contains : Net → Addr → Bool
  parse_chars : ∀ s, (parseIP s).isSome → ∀ c ∈ s.toList, isAddressChar c
  parse_empty : parseIP "" = none

def stripPort (s : String) : String :=
  let s := trimSpace s
  if s = "" then s
  else
    match splitHostPort s with
    | some (host, _) => host
    | none => s

namespace IPLib

variable (lib : IPLib)

def defaultTrustedCIDRs : List lib.Net :=
  ["127.0.0.0/8", "10.0.0.0/8", "172.16.0.0/12", "192.168.0.0/16", "169.254.0.0/16", "::1/128",
    "fc00::/7", "fe80::/10"].filterMap lib.parseCIDR

def trustedEntry (item : String) : Option lib.Net :=
  let item := trimSpace item
  if item = "" then none
  else if AggreApi.contains item "/" then lib.parseCIDR item
  else if AggreApi.contains item ":" then lib.parseCIDR (item ++ "/128")
  else lib.parseCIDR (item ++ "/32")

def loadTrustedCIDRs (env : String) : List lib.Net :=
  let raw := trimSpace env
  if raw = "" then lib.defaultTrustedCIDRs
  else
    let out := (splitChar ',' raw).filterMap lib.trustedEntry
    if out = [] then lib.defaultTrustedCIDRs else out

variable (trusted : List lib.Net)

def isTrustedIP (ip : lib.Addr) : Bool := trusted.any fun n => lib.contains n ip

def walkXFF : List String → String
  | [] => ""
  | part :: rest =>
    let s := stripPort part
    match lib.parseIP s with
    | none => ""
    | some ip => if rest.isEmpty || !lib.isTrustedIP trusted ip then s else walkXFF rest

def pickFromXFF (xff : String) : String :=
  if xff = "" then "" else lib.walkXFF trusted (splitChar ',' xff).reverse

structure Request where
  remoteAddr : String
  header : HttpHeader

def singleHeaders : List (String × String) :=
  [("cf-connecting-ip", "CF-Connecting-IP"), ("true-client-ip", "True-Client-IP"),
    ("x-real-ip", "X-Real-IP")]

/-- The loop of `pickRealIP` over those headers. -/
def pickSingle (h : HttpHeader) : List (String × String) → Option (String × String)
  | [] => none
  | (source, name) :: rest =>
    let s := stripPort (h.get name)
    if s = "" then pickSingle h rest
    else if (lib.parseIP s).isSome then some (s, source)
    else pickSingle h rest

def pickRealIP (r : Request) : String × String :=
  match lib.pickSingle r.header singleHeaders with
  | some pick => pick
  | none =>
    let pick := lib.pickFromXFF trusted (r.header.get "X-Forwarded-For")
    if pick ≠ "" then (pick, "x-forwarded-for")
    else
      let remote := stripPort r.remoteAddr
      if remote ≠ "" ∧ (lib.parseIP remote).isSome then (remote, "remote") else ("", "")

def realIP (env : String) (r : Request) : Request :=
  let picked := (lib.pickRealIP (lib.loadTrustedCIDRs env) r).1
  if picked ≠ "" then { r with remoteAddr := joinHostPort picked "0" } else r

def clientIP (r : Request) : Option lib.Addr := lib.parseIP (stripPort r.remoteAddr)

end IPLib

end AggreApi
